import ValueChannels.Demo.Sample
import ValueChannels.Proofs.Heap.Ageing

/-!
What the messages of the demonstration consist of. The parts of a message are told apart from the
places where they stand, so that a message and the copies of it that come back are described in the
same way. Main statements: `shows_message`, what is made for a worker and a round, and
`describe_shown`, that all copies are summarized alike.
-/

namespace ValueChannels

namespace Sample

/-- The content of objects: which body and which attributes there are at an address. -/
abbrev Holding := Ref → Body → Option Attributes → Prop

def numbers (round : Nat) : AtomicVector :=
  .integer ((List.range ((int32 round).toInt + 1).toNat).map int32)

def point (worker round : Nat) : AtomicVector :=
  .double [Double.ofInt worker, Double.ofInt round]

def scaled : Expr :=
  .call (.symbol "*") [⟨none, .symbol "x"⟩, ⟨none, .symbol "scale"⟩]

def successor : Expr :=
  .call (.symbol "+") [⟨none, .symbol "round"⟩, ⟨none, .constant (.integer 1)⟩]

section Content

variable (holds : Holding)

def Data (ref : Ref) (data : AtomicVector) : Prop :=
  holds ref (.vector data) none

def Listed (ref : Ref) (items : List Ref) : Prop :=
  holds ref (.list items) none

def Global (ref : Ref) : Prop :=
  ∃ bindings parent, holds ref (.environment { kind := .global, bindings, parent }) none

def Local (ref : Ref) (entries : List (String × Ref)) (parent : Ref) : Prop :=
  holds ref (.environment { kind := .localEnv, bindings := ⟨entries⟩, parent := some parent }) none

/-- The value is a message for this worker and this round, or a copy of one. A promise that came
back has the environment that one without environment is evaluated in. -/
def Shows (worker round : Nat) (ref : Ref) : Prop :=
  match round % 6 with
  | 0 => Data holds ref (numbers round)
  | 1 => ∃ names, holds ref (.vector (point worker round)) (some ⟨[("names", names)]⟩) ∧
      Data holds names (.character ["worker", "round"])
  | 2 => ∃ label inner number even, Listed holds ref [label, inner] ∧
      Data holds label (.character ["task"]) ∧ Listed holds inner [number, even] ∧
      Data holds number (.integer [int32 worker]) ∧ Data holds even (.logical [round % 2 == 0])
  | 3 => ∃ env scale global, holds ref (.closure { formals := ["x"], body := scaled, env }) none ∧
      Local holds env [("scale", scale)] global ∧
      Data holds scale (.double [Double.ofInt round]) ∧ Global holds global
  | 4 => ∃ outer one two number global, Local holds ref [("depth", two), ("round", number)] outer ∧
      Local holds outer [("depth", one)] global ∧ Data holds one (.integer [int32 1]) ∧
      Data holds two (.integer [int32 2]) ∧ Data holds number (.integer [int32 round]) ∧
      Global holds global
  | _ => ∃ env, holds ref (.promise { expr := successor, env, value := none }) none ∧
      ∀ place, env = some place → Global holds place

end Content

theorem round_cases (round : Nat) : round % 6 = 0 ∨ round % 6 = 1 ∨ round % 6 = 2 ∨
    round % 6 = 3 ∨ round % 6 = 4 ∨ round % 6 = 5 := by
  omega

variable {holds holds' : Holding} {worker round : Nat} {ref : Ref}

theorem Global.mono (more : ∀ ref body attributes, holds ref body attributes →
    holds' ref body attributes) (global : Global holds ref) : Global holds' ref := by
  obtain ⟨bindings, parent, here⟩ := global
  exact ⟨bindings, parent, more _ _ _ here⟩

/-- What holds of the objects of a message and goes on to hold leaves the message what it is. -/
theorem Shows.mono (more : ∀ ref body attributes, holds ref body attributes →
    holds' ref body attributes) (shows_ : Shows holds worker round ref) :
    Shows holds' worker round ref := by
  unfold Shows at shows_ ⊢
  split at shows_
  · exact more _ _ _ shows_
  · obtain ⟨names, here, there⟩ := shows_
    exact ⟨names, more _ _ _ here, more _ _ _ there⟩
  · obtain ⟨label, inner, number, even, here, first, second, third, fourth⟩ := shows_
    exact ⟨label, inner, number, even, more _ _ _ here, more _ _ _ first, more _ _ _ second,
      more _ _ _ third, more _ _ _ fourth⟩
  · obtain ⟨env, scale, global, here, around, first, isGlobal⟩ := shows_
    exact ⟨env, scale, global, more _ _ _ here,
      more _ _ _ around, more _ _ _ first, isGlobal.mono more⟩
  · obtain ⟨outer, one, two, number, global, here, around, first, second, third, isGlobal⟩ := shows_
    exact ⟨outer, one, two, number, global, more _ _ _ here, more _ _ _ around, more _ _ _ first,
      more _ _ _ second, more _ _ _ third, isGlobal.mono more⟩
  · obtain ⟨env, here, isGlobal⟩ := shows_
    exact ⟨env, more _ _ _ here,
      fun place same => (isGlobal place same).mono more⟩

theorem Global.retained {before after : Heap} (retains : before.Retains after)
    (global : Global before.Holds ref) : Global after.Holds ref :=
  global.mono fun _ _ _ here => retains.holds here

theorem Shows.retained {before after : Heap} (retains : before.Retains after)
    (shows_ : Shows before.Holds worker round ref) : Shows after.Holds worker round ref :=
  shows_.mono fun _ _ _ here => retains.holds here

/-! ### Making a message -/

section Making

variable {heap : Heap} {env parent value : Ref} {name : String} {entries : List (String × Ref)}

theorem ne_of_holds {other : Ref} {body content : Body} {attributes : Option Attributes}
    (here : heap.Holds ref body attributes) (there : heap.Holds other content none)
    (different : body ≠ content) : ref ≠ other := by
  intro same
  rw [same] at here
  exact different (here.body.symm.trans there.body)

theorem local_alloc (heap : Heap) (parent : Ref) :
    Local (heap.allocLocal parent).2.Holds (heap.allocLocal parent).1 [] parent :=
  heap.holds_alloc _

theorem local_define (isLocal : Local heap.Holds env entries parent)
    (fresh : name ∉ entries.map Prod.fst) (value : Ref) :
    Local (heap.define env name value).Holds env (entries ++ [(name, value)]) parent := by
  have written := heap.get_define_same name value isLocal.body
  have content : (⟨entries⟩ : Mapping Ref).insert name value = ⟨entries ++ [(name, value)]⟩ :=
    congrArg Mapping.mk (Mapping.insertEntry_new fresh value)
  constructor
  · rw [heap.size_define]
    exact isLocal.inside
  · have body := congrArg Object.body written
    simp only [content] at body
    exact body
  · have attributes := congrArg Object.attributes written
    exact attributes.trans isLocal.attributes

theorem holds_define {body : Body} {attributes : Option Attributes}
    (here : heap.Holds ref body attributes) (different : ref ≠ env) :
    (heap.define env name value).Holds ref body attributes :=
  here.congr (Nat.le_of_eq (heap.size_define env name value).symm)
    (heap.get_define_other name value different)

theorem shows_countUp (heap : Heap) (round : Nat) :
    Data (countUp heap round).2.Holds (countUp heap round).1 (numbers round) :=
  heap.holds_alloc _

theorem setAttribute_fresh {body : Body} (fresh : heap.get ref = Object.fresh body)
    (different : value ≠ Ref.null) (name : String) :
    heap.setAttribute ref name value =
      (ref, heap.replaceAttributes ref (some ⟨[(name, value)]⟩)) := by
  have unshared : heap.isShared ref = false := congrArg Object.shared fresh
  have bare : heap.attributes ref = none := congrArg Object.attributes fresh
  have entered : Attributes.set Mapping.empty name value = ⟨[(name, value)]⟩ := by
    rw [Attributes.set, if_neg different]
    rfl
  simp only [Heap.setAttribute, Heap.makePrivate, unshared, Bool.false_eq_true, if_false, bare,
    Option.getD_none, entered]

theorem shows_coordinates (heap : Heap) (worker round : Nat) :
    (∃ names, (coordinates heap worker round).2.Holds (coordinates heap worker round).1
        (.vector (point worker round)) (some ⟨[("names", names)]⟩) ∧
      Data (coordinates heap worker round).2.Holds names (.character ["worker", "round"])) ∧
    heap.Retains (coordinates heap worker round).2 := by
  let vector := heap.alloc (.vector (point worker round))
  let names := vector.2.alloc (.vector (.character ["worker", "round"]))
  have old : vector.1.index < vector.2.size := heap.inside_alloc _
  have fresh : names.2.get vector.1 = Object.fresh (.vector (point worker round)) :=
    (vector.2.get_alloc_old _ old).trans (heap.get_alloc_new _)
  have above : vector.1.index < names.1.index := old
  have made : coordinates heap worker round =
      (vector.1, names.2.replaceAttributes vector.1 (some ⟨[("names", names.1)]⟩)) := by
    apply setAttribute_fresh fresh
    intro same
    have zero : names.1.index = 0 := congrArg Ref.index same
    omega
  have inside : vector.1.index < names.2.size := by
    rw [vector.2.size_alloc]
    exact Nat.lt_succ_of_lt old
  rw [made]
  constructor
  · refine ⟨names.1, ?_, ?_⟩
    · have written := names.2.get_replaceAttributes_same (some ⟨[("names", names.1)]⟩) inside
      rw [fresh] at written
      constructor
      · rw [names.2.size_replaceAttributes]
        exact inside
      · exact congrArg Object.body written
      · exact congrArg Object.attributes written
    · apply (vector.2.holds_alloc _).congr (Nat.le_of_eq (names.2.size_replaceAttributes _ _).symm)
      apply names.2.get_replaceAttributes_other
      intro same
      have equal : names.1.index = vector.1.index := congrArg Ref.index same
      omega
  · exact ((Heap.Retains.alloc heap _).trans (.alloc vector.2 _)).replaceAttributes _
      (Nat.le_refl _)

theorem shows_task (heap : Heap) (worker round : Nat) :
    (∃ label inner number even,
      Listed (task heap worker round).2.Holds (task heap worker round).1 [label, inner] ∧
        Data (task heap worker round).2.Holds label (.character ["task"]) ∧
        Listed (task heap worker round).2.Holds inner [number, even] ∧
        Data (task heap worker round).2.Holds number (.integer [int32 worker]) ∧
        Data (task heap worker round).2.Holds even (.logical [round % 2 == 0])) ∧
    heap.Retains (task heap worker round).2 := by
  let label := allocText heap "task"
  let number := allocInteger label.2 worker
  let even := number.2.alloc (.vector (.logical [round % 2 == 0]))
  let inner := even.2.alloc (.list [number.1, even.1])
  let outer := inner.2.alloc (.list [label.1, inner.1])
  have labels : heap.Retains label.2 := .alloc heap _
  have numbers : label.2.Retains number.2 := .alloc label.2 _
  have evens : number.2.Retains even.2 := .alloc number.2 _
  have inners : even.2.Retains inner.2 := .alloc even.2 _
  have outers : inner.2.Retains outer.2 := .alloc inner.2 _
  constructor
  · refine ⟨label.1, inner.1, number.1, even.1, inner.2.holds_alloc _, ?_, ?_, ?_, ?_⟩
    · exact ((numbers.trans evens).trans (inners.trans outers)).holds (heap.holds_alloc _)
    · exact outers.holds (even.2.holds_alloc _)
    · exact (evens.trans (inners.trans outers)).holds (label.2.holds_alloc _)
    · exact (inners.trans outers).holds (number.2.holds_alloc _)
  · exact labels.trans ((numbers.trans evens).trans (inners.trans outers))

def bindData (heap : Heap) (env : Ref) (name : String) (data : AtomicVector) : Heap :=
  (heap.alloc (.vector data)).2.define env name ⟨heap.size⟩

section Binding

variable (isLocal : Local heap.Holds env entries parent) (data : AtomicVector)

include isLocal

theorem local_bindData (name : String) (fresh : name ∉ entries.map Prod.fst) :
    Local (bindData heap env name data).Holds env (entries ++ [(name, ⟨heap.size⟩)]) parent := by
  have still : Local (heap.alloc (.vector data)).2.Holds env entries parent :=
    (Heap.Retains.alloc heap _).holds isLocal
  exact local_define still fresh _

theorem data_bindData (name : String) :
    Data (bindData heap env name data).Holds ⟨heap.size⟩ data := by
  have still : Local (heap.alloc (.vector data)).2.Holds env entries parent :=
    (Heap.Retains.alloc heap _).holds isLocal
  have here : Data (heap.alloc (.vector data)).2.Holds ⟨heap.size⟩ data := heap.holds_alloc _
  exact holds_define here (ne_of_holds here still (by simp))

end Binding

theorem holds_bindData {body : Body} {attributes : Option Attributes}
    (here : heap.Holds ref body attributes) (different : ref ≠ env)
    (name : String) (data : AtomicVector) :
    (bindData heap env name data).Holds ref body attributes :=
  holds_define ((Heap.Retains.alloc heap _).holds here) different

theorem retains_bindData {before : Heap} (retains : before.Retains heap) (env : Ref)
    (new : before.size ≤ env.index) (name : String) (data : AtomicVector) :
    before.Retains (bindData heap env name data) :=
  (retains.trans (.alloc heap _)).define name _ new

theorem scaling_eq (heap : Heap) (environments : Environments) (round : Nat) :
    scaling heap environments round =
      (bindData (heap.allocLocal environments.global).2 ⟨heap.size⟩ "scale"
        (.double [Double.ofInt round])).alloc
          (.closure { formals := ["x"], body := scaled, env := ⟨heap.size⟩ }) :=
  rfl

theorem shows_scaling (heap : Heap) (environments : Environments) (round : Nat)
    (isGlobal : Global heap.Holds environments.global) :
    (∃ env scale global, (scaling heap environments round).2.Holds
        (scaling heap environments round).1 (.closure { formals := ["x"], body := scaled, env })
        none ∧
      Local (scaling heap environments round).2.Holds env [("scale", scale)] global ∧
      Data (scaling heap environments round).2.Holds scale (.double [Double.ofInt round]) ∧
      Global (scaling heap environments round).2.Holds global) ∧
    heap.Retains (scaling heap environments round).2 := by
  have made : heap.Retains (heap.allocLocal environments.global).2 := .alloc heap _
  have isLocal := local_alloc heap environments.global
  have place : (heap.allocLocal environments.global).1 = ⟨heap.size⟩ := rfl
  rw [scaling_eq]
  rw [place] at isLocal
  generalize (heap.allocLocal environments.global).2 = start at made isLocal ⊢
  have filled := local_bindData isLocal (.double [Double.ofInt round]) "scale" List.not_mem_nil
  have scale := data_bindData isLocal (.double [Double.ofInt round]) "scale"
  have fills :=
    retains_bindData made ⟨heap.size⟩ (Nat.le_refl _) "scale" (.double [Double.ofInt round])
  generalize bindData start ⟨heap.size⟩ "scale" (.double [Double.ofInt round]) = middle
    at filled scale fills ⊢
  have closes := Heap.Retains.alloc middle
    (.closure { formals := ["x"], body := scaled, env := ⟨heap.size⟩ })
  constructor
  · refine ⟨⟨heap.size⟩, ⟨start.size⟩, environments.global, middle.holds_alloc _, ?_, ?_, ?_⟩
    · exact closes.holds filled
    · exact closes.holds scale
    · exact isGlobal.retained (fills.trans closes)
  · exact fills.trans closes

theorem shows_inner (first : Heap) (outer : Ref) (round : Nat) :
    let inner : Ref := ⟨first.size⟩
    let deep := bindData (first.allocLocal outer).2 inner "depth" (.integer [int32 2])
    let after := bindData deep inner "round" (.integer [int32 round])
    (∃ two number, Local after.Holds inner [("depth", two), ("round", number)] outer ∧
      Data after.Holds two (.integer [int32 2]) ∧
      Data after.Holds number (.integer [int32 round])) ∧ first.Retains after := by
  intro inner deep after
  have made : first.Retains (first.allocLocal outer).2 := .alloc first _
  have isLocal : Local (first.allocLocal outer).2.Holds inner [] outer := local_alloc first outer
  have once : Local deep.Holds inner [("depth", _)] outer :=
    local_bindData isLocal (.integer [int32 2]) "depth" List.not_mem_nil
  have two := data_bindData isLocal (.integer [int32 2]) "depth"
  have kept := retains_bindData made inner (Nat.le_refl _) "depth" (.integer [int32 2])
  have apart := ne_of_holds two once (by simp)
  have absent : "round" ∉ ["depth"] := by decide
  constructor
  · exact ⟨_, _, local_bindData once (.integer [int32 round]) "round" absent,
      holds_bindData two apart _ _,
      data_bindData once (.integer [int32 round]) "round"⟩
  · exact retains_bindData kept inner (Nat.le_refl _) "round" (.integer [int32 round])

theorem nested_eq (heap : Heap) (environments : Environments) (round : Nat) :
    nested heap environments round =
      let first := bindData (heap.allocLocal environments.global).2 ⟨heap.size⟩ "depth"
        (.integer [int32 1])
      (⟨first.size⟩, bindData (bindData (first.allocLocal ⟨heap.size⟩).2 ⟨first.size⟩ "depth"
        (.integer [int32 2])) ⟨first.size⟩ "round" (.integer [int32 round])) :=
  rfl

theorem shows_nested (heap : Heap) (environments : Environments) (round : Nat)
    (isGlobal : Global heap.Holds environments.global) :
    (∃ outer one two number global, Local (nested heap environments round).2.Holds
        (nested heap environments round).1 [("depth", two), ("round", number)] outer ∧
      Local (nested heap environments round).2.Holds outer [("depth", one)] global ∧
      Data (nested heap environments round).2.Holds one (.integer [int32 1]) ∧
      Data (nested heap environments round).2.Holds two (.integer [int32 2]) ∧
      Data (nested heap environments round).2.Holds number (.integer [int32 round]) ∧
      Global (nested heap environments round).2.Holds global) ∧
    heap.Retains (nested heap environments round).2 := by
  have made : heap.Retains (heap.allocLocal environments.global).2 := .alloc heap _
  have isLocal := local_alloc heap environments.global
  have place : (heap.allocLocal environments.global).1 = ⟨heap.size⟩ := rfl
  rw [nested_eq]
  rw [place] at isLocal
  have around := local_bindData isLocal (.integer [int32 1]) "depth" List.not_mem_nil
  have shallow := data_bindData isLocal (.integer [int32 1]) "depth"
  have fills := retains_bindData made ⟨heap.size⟩ (Nat.le_refl _) "depth" (.integer [int32 1])
  generalize bindData (heap.allocLocal environments.global).2 ⟨heap.size⟩ "depth"
    (.integer [int32 1]) = first at around shallow fills ⊢
  dsimp only
  obtain ⟨⟨two, number, here, deep, last⟩, onward⟩ := shows_inner first ⟨heap.size⟩ round
  constructor
  · refine ⟨⟨heap.size⟩, ⟨(heap.allocLocal environments.global).2.size⟩, two, number,
      environments.global, here, ?_, ?_, deep, last, ?_⟩
    · exact onward.holds around
    · exact onward.holds shallow
    · exact isGlobal.retained (fills.trans onward)
  · exact fills.trans onward

/-- Making a message leaves everything else as it is. -/
theorem shows_message (heap : Heap) (environments : Environments)
    (isGlobal : Global heap.Holds environments.global) (worker round : Nat) :
    Shows (message heap environments worker round).2.Holds worker round
        (message heap environments worker round).1 ∧
      heap.Retains (message heap environments worker round).2 := by
  rcases round_cases round with kind | kind | kind | kind | kind | kind
  · simp only [message, Shows, kind]
    exact ⟨shows_countUp heap round, .alloc heap _⟩
  · simp only [message, Shows, kind]
    exact shows_coordinates heap worker round
  · simp only [message, Shows, kind]
    exact shows_task heap worker round
  · simp only [message, Shows, kind]
    exact shows_scaling heap environments round isGlobal
  · simp only [message, Shows, kind]
    exact shows_nested heap environments round isGlobal
  · simp only [message, Shows, kind]
    exact ⟨⟨none, heap.holds_alloc _, by simp⟩, .alloc heap _⟩

end Making

/-! ### What a message looks like -/

def shape (round : Nat) : ValueKind :=
  match round % 6 with
  | 0 => .integer
  | 1 => .double
  | 2 => .list
  | 3 => .closure
  | 4 => .environment
  | _ => .promise

/-- The line about a message for a worker and a round. -/
def summary (worker round : Nat) : String :=
  match round % 6 with
  | 0 => "integer " ++ (numbers round).inspectData
  | 1 => "double " ++ (point worker round).inspectData ++ " attrs " ++ Text.bracketed ["names"]
  | 2 => "list " ++ ("length " ++ toString 2)
  | 3 => "closure (" ++ String.intercalate ", " ["x"] ++ ") capturing " ++ Text.bracketed ["scale"]
  | 4 => "environment " ++ Text.bracketed ["depth", "round"] ++ " depth " ++ toString 2
  | _ => "promise " ++ successor.deparse ++ " evaluated=" ++ Text.inspectBool false

section Looks

variable {heap : Heap}

theorem kind_shown (shows_ : Shows heap.Holds worker round ref) : heap.kind ref = shape round := by
  rcases round_cases round with kind | kind | kind | kind | kind | kind
  all_goals simp only [Shows, kind] at shows_
  · simp only [Heap.kind, shows_.body, shape, kind]
    rfl
  · obtain ⟨_, here, _⟩ := shows_
    simp only [Heap.kind, here.body, shape, kind]
    rfl
  · obtain ⟨_, _, _, _, here, _⟩ := shows_
    simp only [Heap.kind, here.body, shape, kind]
    rfl
  · obtain ⟨_, _, _, here, _⟩ := shows_
    simp only [Heap.kind, here.body, shape, kind]
    rfl
  · obtain ⟨_, _, _, _, _, here, _⟩ := shows_
    simp only [Heap.kind, here.body, shape, kind]
    rfl
  · obtain ⟨_, here, _⟩ := shows_
    simp only [Heap.kind, here.body, shape, kind]
    rfl

theorem frame?_of_holds {frame : Frame} {attributes : Option Attributes}
    (here : heap.Holds ref (.environment frame) attributes) : heap.frame? ref = some frame :=
  heap.frame?_eq_some.mpr here.body

theorem describe_shown (shows_ : Shows heap.Holds worker round ref) (room : 2 ≤ heap.size) :
    describe heap ref = summary worker round := by
  rcases round_cases round with kind | kind | kind | kind | kind | kind
  all_goals simp only [Shows, kind] at shows_
  · simp only [describe, shows_.body, shows_.attributes, summary, kind]
    rfl
  · obtain ⟨names, here, _⟩ := shows_
    simp only [describe, here.body, here.attributes, summary, kind]
    rfl
  · obtain ⟨label, inner, number, even, here, _⟩ := shows_
    simp only [describe, here.body, here.attributes, summary, kind]
    rfl
  · obtain ⟨env, scale, global, here, around, _⟩ := shows_
    simp only [describe, here.body, summary, kind, Heap.bindings, frame?_of_holds around]
    rfl
  · obtain ⟨outer, one, two, number, global, here, around, _, _, _, isGlobal⟩ := shows_
    obtain ⟨bindings, parent, last⟩ := isGlobal
    -- Three steps up from the value there is the global environment, where the count ends.
    obtain ⟨steps, enough⟩ := Nat.exists_eq_add_of_le' room
    simp only [describe, here.body, summary, kind, enough, localDepth, frame?_of_holds here,
      frame?_of_holds around, frame?_of_holds last, EnvironmentKind.isLocal, if_true,
      Bool.false_eq_true, if_false]
    rfl
  · obtain ⟨env, here, _⟩ := shows_
    simp only [describe, here.body, summary, kind]
    rfl

end Looks

end Sample

end ValueChannels
