import Mathlib.Data.Finset.Card
import Mathlib.Data.Finset.Prod
import Mathlib.Data.Finset.Range
import Mathlib.Logic.Relation
import Mathlib.Order.Monotone.Basic
import ValueChannels.Proofs.Heap.Paths
import ValueChannels.Proofs.Heap.Soundness
import ValueChannels.Value.Identical

/-!
Comparisons that come to an end. The comparison of two values goes into their elements, attributes,
values of promises and environments of closures, on both sides at once; the frames of environments
stay closed, but not their attributes. Main statements: `answers_iff`, that the depth to which
values are compared withholds no answer, `answers_of_straight`, that there is one when one of the
two values has an end, and `answers_throughEnvironments`, what that says of environments.
-/

namespace ValueChannels

/-- What the comparison of a body goes into. -/
def Body.compared : Body → List Ref
  | .list items => items
  | .promise delayed => delayed.value.toList
  | .closure function => [function.env]
  | _ => []

namespace Heap

/-- What the comparison of an object goes into. -/
def compared (heap : Heap) (ref : Ref) : List Ref :=
  (heap.body ref).compared ++ (attributeEntries (heap.attributes ref)).map Prod.snd

def Enters (heap : Heap) (ref child : Ref) : Prop :=
  child ∈ heap.compared ref

/-- A comparison that sets out from this object never comes back to an object that it has left. -/
def Straight (heap : Heap) (start : Ref) : Prop :=
  ∀ ref, Relation.ReflTransGen heap.Enters start ref → ¬Relation.TransGen heap.Enters ref ref

variable {heap : Heap} {a b : Ref} {answer : Bool} {depth : Nat}

/-! ### One step -/

section Answers

variable {compare : Ref → Ref → Option Bool}

theorem isSome_compareAll {xs ys : List Ref}
    (each : ∀ x ∈ xs, ∀ y ∈ ys, (compare x y).isSome = true) :
    (compareAll compare xs ys).isSome = true := by
  induction xs generalizing ys with
  | nil => cases ys <;> rfl
  | cons x xs ih =>
      cases ys with
      | nil => rfl
      | cons y ys =>
          obtain ⟨answer, first⟩ := Option.isSome_iff_exists.mp
            (each x List.mem_cons_self y List.mem_cons_self)
          have rest := ih fun other member another found =>
            each other (List.mem_cons_of_mem x member) another (List.mem_cons_of_mem y found)
          rw [compareAll, first]
          cases answer with
          | true => exact rest
          | false => rfl

theorem isSome_compareEntries {other : Attributes} {entries : List (String × Ref)}
    (each : ∀ x ∈ entries.map Prod.snd, ∀ y ∈ other.entries.map Prod.snd,
      (compare x y).isSome = true) :
    (compareEntries compare other entries).isSome = true := by
  induction entries with
  | nil => rfl
  | cons entry entries ih =>
      obtain ⟨name, x⟩ := entry
      rw [compareEntries]
      cases found : other.get? name with
      | none => rfl
      | some y =>
          obtain ⟨answer, first⟩ := Option.isSome_iff_exists.mp
            (each x List.mem_cons_self y (List.mem_map_of_mem (mem_of_lookup found)))
          have rest := ih fun another member =>
            each another (List.mem_cons_of_mem x member)
          simp only [first]
          cases answer with
          | true => exact rest
          | false => rfl

theorem isSome_compareAttributes {xs ys : Option Attributes}
    (each : ∀ x ∈ (attributeEntries xs).map Prod.snd, ∀ y ∈ (attributeEntries ys).map Prod.snd,
      (compare x y).isSome = true) :
    (compareAttributes compare xs ys).isSome = true := by
  rw [compareAttributes]
  split
  · exact isSome_compareEntries each
  · rfl

theorem isSome_compareBodies {x y : Body}
    (each : ∀ inner ∈ x.compared, ∀ other ∈ y.compared, (compare inner other).isSome = true) :
    (compareBodies compare x y).isSome = true := by
  unfold compareBodies
  split
  · rfl
  · rfl
  · rfl
  · split
    · exact isSome_compareAll each
    · rfl
  · rename_i x y
    obtain ⟨expr, env, value⟩ := x
    obtain ⟨expr', env', value'⟩ := y
    split
    · cases value with
      | none => cases value' <;> rfl
      | some inner =>
          cases value' with
          | none => rfl
          | some other => exact each inner List.mem_cons_self other List.mem_cons_self
    · rfl
  · split
    · exact each _ List.mem_cons_self _ List.mem_cons_self
    · rfl
  · rfl
  · rfl
  · rfl

end Answers

theorem isSome_identicalWithin
    (each : ∀ x ∈ heap.compared a, ∀ y ∈ heap.compared b,
      (heap.identicalWithin depth x y).isSome = true) :
    (heap.identicalWithin (depth + 1) a b).isSome = true := by
  rw [identicalWithin]
  split
  · rfl
  · have attributes := @isSome_compareAttributes (heap.identicalWithin depth) (heap.attributes a)
      (heap.attributes b) fun x member y found =>
        each x (List.mem_append_right _ member) y (List.mem_append_right _ found)
    obtain ⟨answer, same⟩ := Option.isSome_iff_exists.mp attributes
    simp only [same]
    cases answer with
    | false => rfl
    | true =>
        exact isSome_compareBodies fun x member y found =>
          each x (List.mem_append_left _ member) y (List.mem_append_left _ found)

/-! ### Deeper comparisons -/

/-- One comparison answers whatever another one does. -/
def Refines (first second : Ref → Ref → Option Bool) : Prop :=
  ∀ x y answer, first x y = some answer → second x y = some answer

theorem answered_then {found found' next next' : Option Bool} :
    (∀ answer, found = some answer → found' = some answer) →
      (∀ answer, next = some answer → next' = some answer) →
        (match found with
          | some true => next
          | other => other) = some answer →
          (match found' with
            | some true => next'
            | other => other) = some answer := by
  intro first second answered
  cases found with
  | none => cases answered
  | some same =>
      rw [first same rfl]
      cases same with
      | true => exact second answer answered
      | false => exact answered

namespace Refines

variable {first second : Ref → Ref → Option Bool}

theorem all (refines : Refines first second) (xs ys : List Ref) (answer : Bool)
    (answered : compareAll first xs ys = some answer) :
    compareAll second xs ys = some answer := by
  induction xs generalizing ys answer with
  | nil => cases ys <;> exact answered
  | cons x xs ih =>
      cases ys with
      | nil => exact answered
      | cons y ys => exact answered_then (refines x y) (ih ys) answered

theorem entries (refines : Refines first second) {other : Attributes}
    {entries : List (String × Ref)} (answer : Bool)
    (answered : compareEntries first other entries = some answer) :
    compareEntries second other entries = some answer := by
  induction entries generalizing answer with
  | nil => exact answered
  | cons entry entries ih =>
      obtain ⟨name, x⟩ := entry
      rw [compareEntries] at answered ⊢
      cases found : other.get? name with
      | none =>
          rw [found] at answered
          exact answered
      | some y =>
          simp only [found] at answered ⊢
          exact answered_then (refines x y) ih answered

theorem attributes (refines : Refines first second) {xs ys : Option Attributes} (answer : Bool)
    (answered : compareAttributes first xs ys = some answer) :
    compareAttributes second xs ys = some answer := by
  rw [compareAttributes] at answered ⊢
  split at answered
  · rename_i size
    rw [if_pos size]
    exact refines.entries answer answered
  · rename_i size
    rw [if_neg size]
    exact answered

theorem bodies (refines : Refines first second) {x y : Body} (answer : Bool)
    (answered : compareBodies first x y = some answer) :
    compareBodies second x y = some answer := by
  -- Only a comparison of parts can be left without an answer; all others do not depend on the
  -- depth.
  cases x with
  | list xs =>
      cases y with
      | list ys =>
          rw [compareBodies] at answered ⊢
          split at answered
          · rename_i length
            rw [if_pos length]
            exact refines.all xs ys answer answered
          · rename_i length
            rw [if_neg length]
            exact answered
      | _ => exact answered
  | promise x =>
      cases y with
      | promise y =>
          obtain ⟨expr, env, value⟩ := x
          obtain ⟨expr', env', value'⟩ := y
          rw [compareBodies] at answered ⊢
          split at answered
          · rename_i same
            rw [if_pos same]
            cases value <;> cases value' <;> try exact answered
            exact refines _ _ answer answered
          · rename_i different
            rw [if_neg different]
            exact answered
      | _ => exact answered
  | closure x =>
      cases y with
      | closure y =>
          rw [compareBodies] at answered ⊢
          split at answered
          · rename_i same
            rw [if_pos same]
            exact refines x.env y.env answer answered
          · rename_i different
            rw [if_neg different]
            exact answered
      | _ => exact answered
  | _ => cases y <;> exact answered

end Refines

theorem refines_identicalWithin (heap : Heap) (depth : Nat) :
    Refines (heap.identicalWithin depth) (heap.identicalWithin (depth + 1)) := by
  induction depth with
  | zero => exact fun _ _ _ answered => nomatch answered
  | succ depth ih =>
      intro x y answer answered
      rw [identicalWithin] at answered ⊢
      split at answered
      · rename_i same
        rw [if_pos same]
        exact answered
      · rename_i different
        rw [if_neg different]
        exact answered_then ih.attributes ih.bodies answered

theorem identicalWithin_mono {deeper : Nat} (more : depth ≤ deeper)
    (answered : heap.identicalWithin depth a b = some answer) :
    heap.identicalWithin deeper a b = some answer := by
  induction more with
  | refl => exact answered
  | step _ ih => exact heap.refines_identicalWithin _ a b answer ih

/-! ### The depth that is enough -/

theorem compared_outside (outside : heap.size ≤ a.index) : heap.compared a = [] := by
  rw [compared, body, attributes, heap.get_outside outside]
  rfl

open Classical in
/-- The pairs of objects of the heap that are compared within a depth. -/
noncomputable def answered (heap : Heap) (depth : Nat) : Finset (Nat × Nat) :=
  (Finset.range heap.size ×ˢ Finset.range heap.size).filter fun pair =>
    (heap.identicalWithin depth ⟨pair.1⟩ ⟨pair.2⟩).isSome = true

theorem mem_answered {pair : Nat × Nat} : pair ∈ heap.answered depth ↔
    (pair.1 < heap.size ∧ pair.2 < heap.size) ∧
      (heap.identicalWithin depth ⟨pair.1⟩ ⟨pair.2⟩).isSome = true := by
  simp only [answered, Finset.mem_filter, Finset.mem_product, Finset.mem_range]

theorem card_answered_le (heap : Heap) (depth : Nat) :
    (heap.answered depth).card ≤ heap.size * heap.size := by
  have most : (heap.answered depth).card ≤
      (Finset.range heap.size ×ˢ Finset.range heap.size).card := Finset.card_filter_le _ _
  rw [Finset.card_product, Finset.card_range] at most
  exact most

theorem answered_subset {deeper : Nat} (more : depth ≤ deeper) :
    heap.answered depth ⊆ heap.answered deeper := by
  intro pair member
  obtain ⟨inside, compared⟩ := mem_answered.mp member
  obtain ⟨answer, found⟩ := Option.isSome_iff_exists.mp compared
  rw [mem_answered, identicalWithin_mono more found]
  exact ⟨inside, rfl⟩

theorem isSome_outside (outside : heap.size ≤ a.index ∨ heap.size ≤ b.index) :
    (heap.identicalWithin (depth + 1) a b).isSome = true := by
  apply isSome_identicalWithin
  intro x member y found
  rcases outside with left | right
  · rw [compared_outside left] at member
    cases member
  · rw [compared_outside right] at found
    cases found

/-- When no more pairs are compared at a greater depth, nothing else is answered there. -/
theorem identicalWithin_same {deeper : Nat} (more : depth ≤ deeper)
    (same : (heap.answered (depth + 1)).card = (heap.answered (deeper + 1)).card) :
    heap.identicalWithin (deeper + 1) = heap.identicalWithin (depth + 1) := by
  have later : depth + 1 ≤ deeper + 1 := Nat.succ_le_succ more
  have whole : heap.answered (depth + 1) = heap.answered (deeper + 1) :=
    Finset.eq_of_subset_of_card_le (answered_subset later) same.ge
  funext a b
  cases sooner : heap.identicalWithin (depth + 1) a b with
  | some answer => exact identicalWithin_mono later sooner
  | none =>
      cases found : heap.identicalWithin (deeper + 1) a b with
      | none => rfl
      | some answer =>
          have inside : a.index < heap.size ∧ b.index < heap.size := by
            by_contra outside
            have compared := @isSome_outside heap a b depth (by omega)
            rw [sooner] at compared
            cases compared
          have member : (a.index, b.index) ∈ heap.answered (deeper + 1) :=
            mem_answered.mpr ⟨inside, by rw [found]; rfl⟩
          rw [← whole] at member
          have compared := (mem_answered.mp member).2
          rw [sooner] at compared
          cases compared

/-- Comparing to a greater depth yields no further answers. -/
theorem identicalWithin_enough (enough : heap.size * heap.size ≤ depth) :
    heap.identicalWithin (depth + 1) = heap.identicalWithin (heap.size * heap.size + 1) := by
  refine identicalWithin_same enough (Eq.symm ?_)
  -- There are only so many pairs, and once none is added by a step none ever is.
  refine Nat.stabilises_of_monotone (f := fun depth => (heap.answered (depth + 1)).card)
    (fun _ _ more => Finset.card_le_card (answered_subset (Nat.succ_le_succ more)))
    (fun depth => heap.card_answered_le (depth + 1)) (fun depth same => ?_) enough
  have still := identicalWithin_same (Nat.le_succ depth) same
  have next : heap.identicalWithin (depth + 3) = heap.identicalWithin (depth + 2) := by
    funext a b
    rw [identicalWithin, identicalWithin, still]
  have pairs : heap.answered (depth + 2) = heap.answered (depth + 3) := by
    ext pair
    rw [mem_answered, mem_answered, next]
  exact congrArg Finset.card pairs

/-- The comparison has an answer when it has one at any depth, so it has none only when it never
ends. -/
theorem answers_iff : (∃ answer, heap.identical a b = some answer) ↔
    ∃ depth answer, heap.identicalWithin depth a b = some answer := by
  constructor
  · rintro ⟨answer, found⟩
    exact ⟨_, answer, found⟩
  · rintro ⟨depth, answer, found⟩
    refine ⟨answer, ?_⟩
    have later : depth ≤ max depth (heap.size * heap.size) + 1 :=
      Nat.le_succ_of_le (Nat.le_max_left _ _)
    have deeper := identicalWithin_mono later found
    rw [identicalWithin_enough (Nat.le_max_right _ _)] at deeper
    exact deeper

/-! ### Values that have an end -/

theorem inside_of_enters {ref child : Ref} (enters : heap.Enters ref child) :
    ref.index < heap.size := by
  by_contra outside
  rw [Enters, compared_outside (Nat.le_of_not_lt outside)] at enters
  cases enters

open Classical in
/-- The objects that a comparison which sets out from this object may come to. -/
noncomputable def entered (heap : Heap) (ref : Ref) : Finset Nat :=
  (Finset.range heap.size).filter fun index =>
    Relation.ReflTransGen heap.Enters ref ⟨index⟩

theorem mem_entered {ref : Ref} {index : Nat} : index ∈ heap.entered ref ↔
    index < heap.size ∧ Relation.ReflTransGen heap.Enters ref ⟨index⟩ := by
  simp only [entered, Finset.mem_filter, Finset.mem_range]

theorem card_entered_le (heap : Heap) (ref : Ref) : (heap.entered ref).card ≤ heap.size := by
  have inside : heap.entered ref ⊆ Finset.range heap.size :=
    fun _ member => Finset.mem_range.mpr (mem_entered.mp member).1
  have most := Finset.card_le_card inside
  rw [Finset.card_range] at most
  exact most

theorem Straight.next {ref child : Ref} (straight : heap.Straight ref)
    (enters : heap.Enters ref child) :
    heap.Straight child ∧ (heap.entered child).card < (heap.entered ref).card := by
  refine ⟨fun other found => straight other (.head enters found), Finset.card_lt_card ?_⟩
  have fewer : heap.entered child ⊆ heap.entered ref := by
    intro index member
    obtain ⟨inside, found⟩ := mem_entered.mp member
    exact mem_entered.mpr ⟨inside, .head enters found⟩
  rw [Finset.ssubset_iff_of_subset fewer]
  refine ⟨ref.index, mem_entered.mpr ⟨inside_of_enters enters, .refl⟩, ?_⟩
  intro back
  exact straight ref .refl (Relation.TransGen.head' enters (mem_entered.mp back).2)

theorem isSome_within (among : Ref → Ref → Prop) (needs : Ref → Ref → Nat)
    (next : ∀ a b, among a b → ∀ x, heap.Enters a x → ∀ y, heap.Enters b y →
      among x y ∧ needs x y < needs a b)
    (here : among a b) (enough : needs a b < depth) :
    (heap.identicalWithin depth a b).isSome = true := by
  induction depth generalizing a b with
  | zero => cases enough
  | succ depth ih =>
      refine isSome_identicalWithin fun x member y found => ?_
      obtain ⟨there, less⟩ := next a b here x member y found
      exact ih there (by omega)

/-- Two values are compared, with an answer, when one of them leads to no cycle through elements,
attributes, values of promises and environments of closures: when all its cycles pass through the
frame of an environment, or into the environment of a promise. -/
theorem answers_of_straight (straight : heap.Straight a ∨ heap.Straight b) :
    ∃ answer, heap.identical a b = some answer := by
  have room : heap.size < heap.size * heap.size + 1 := Nat.lt_succ_of_le (Nat.le_mul_self _)
  apply Option.isSome_iff_exists.mp
  rcases straight with left | right
  · refine isSome_within (fun a _ => heap.Straight a) (fun a _ => (heap.entered a).card) ?_ left ?_
    · exact fun _ _ straight _ enters _ _ => straight.next enters
    · exact Nat.lt_of_le_of_lt (heap.card_entered_le a) room
  · refine isSome_within (fun _ b => heap.Straight b) (fun _ b => (heap.entered b).card) ?_ right ?_
    · exact fun _ _ straight _ _ _ enters => straight.next enters
    · exact Nat.lt_of_le_of_lt (heap.card_entered_le b) room

/-! ### Cycles through environments -/

/-- Every cycle, whatever it goes through, passes through an environment. -/
def ThroughEnvironments (heap : Heap) : Prop :=
  ∀ ref, ¬Relation.TransGen
    (fun first next => heap.kind first ≠ .environment ∧ next ∈ (heap.get first).children) ref ref

theorem children_of_enters {ref child : Ref} (enters : heap.Enters ref child) :
    child ∈ (heap.get ref).children := by
  rw [Enters, compared, List.mem_append] at enters
  rw [Object.children, List.mem_append]
  refine enters.imp_left fun member => ?_
  change child ∈ (heap.body ref).children
  cases content : heap.body ref with
  | promise delayed =>
      rw [content] at member
      exact List.mem_append_right _ member
  | list items =>
      rw [content] at member
      exact member
  | closure function =>
      rw [content] at member
      exact member
  | _ =>
      rw [content] at member
      cases member

/-- No environment that a comparison from this object comes to is come to again from its own
attributes. -/
def LeavesEnvironments (heap : Heap) (start : Ref) : Prop :=
  ∀ env, Relation.ReflTransGen heap.Enters start env → heap.kind env = .environment →
    ¬Relation.TransGen heap.Enters env env

/-- A comparison that goes from one object to another leaves an environment on its way, or else
takes none but steps of other objects. -/
theorem environment_on_path {first last : Ref} (path : Relation.TransGen heap.Enters first last) :
    Relation.TransGen
        (fun first next => heap.kind first ≠ .environment ∧ next ∈ (heap.get first).children)
        first last ∨
      ∃ env, Relation.ReflTransGen heap.Enters first env ∧ heap.kind env = .environment ∧
        Relation.TransGen heap.Enters env last := by
  induction path with
  | single enters =>
      by_cases environment : heap.kind first = .environment
      · exact Or.inr ⟨first, .refl, environment, .single enters⟩
      · exact Or.inl (.single ⟨environment, children_of_enters enters⟩)
  | @tail middle _ before enters ih =>
      by_cases environment : heap.kind middle = .environment
      · exact Or.inr ⟨middle, before.to_reflTransGen, environment, .single enters⟩
      · refine ih.imp (fun plain => plain.tail ⟨environment, children_of_enters enters⟩) ?_
        rintro ⟨env, found, kind, path⟩
        exact ⟨env, found, kind, path.tail enters⟩

theorem ThroughEnvironments.straight (through : heap.ThroughEnvironments) {start : Ref}
    (leaves : heap.LeavesEnvironments start) : heap.Straight start := by
  intro ref found cycle
  obtain plain | ⟨env, there, environment, back⟩ := environment_on_path cycle
  · exact through ref plain
  · exact leaves env (found.trans there) environment (back.trans_left there)

/-- Where every cycle passes through an environment, two values are compared with an answer when
the comparison of one of them never goes from the attributes of an environment back to it. -/
theorem answers_throughEnvironments (through : heap.ThroughEnvironments)
    (leaves : heap.LeavesEnvironments a ∨ heap.LeavesEnvironments b) :
    ∃ answer, heap.identical a b = some answer :=
  answers_of_straight (leaves.imp through.straight through.straight)

theorem throughEnvironments_of_older
    (older : ∀ index < heap.size, heap.kind ⟨index⟩ ≠ .environment →
      ∀ child ∈ (heap.get ⟨index⟩).children, child.index < index) :
    heap.ThroughEnvironments := by
  intro ref cycle
  have falls {last : Ref} (path : Relation.TransGen (fun first next =>
      heap.kind first ≠ .environment ∧ next ∈ (heap.get first).children) ref last) :
      last.index < ref.index := by
    have step {first next : Ref} (other : heap.kind first ≠ .environment)
        (member : next ∈ (heap.get first).children) : next.index < first.index := by
      by_cases inside : first.index < heap.size
      · exact older first.index inside other next member
      · rw [heap.get_outside (Nat.le_of_not_lt inside)] at member
        cases member
    induction path with
    | single last => exact step last.1 last.2
    | tail _ last ih => exact Nat.lt_trans (step last.1 last.2) ih
  exact Nat.lt_irrefl _ (falls cycle)

/-- Two functions, each of which is bound in the environment that it was made in. -/
def siblingHeap : Heap :=
  let (environments, heap) := Environments.create Heap.initial
  let (first, heap) := heap.allocLocal environments.global
  let (function, heap) := heap.alloc (.closure { formals := [], body := .symbol "x", env := first })
  let heap := heap.define first "f" function
  let (second, heap) := heap.allocLocal environments.global
  let (other, heap) := heap.alloc (.closure { formals := [], body := .symbol "x", env := second })
  heap.define second "f" other

theorem throughEnvironments_siblingHeap : siblingHeap.ThroughEnvironments :=
  throughEnvironments_of_older (by decide)

theorem leaves_siblings (start : Ref) : siblingHeap.LeavesEnvironments start := by
  intro env _ environment cycle
  obtain ⟨next, enters, _⟩ := Relation.TransGen.head'_iff.mp cycle
  have bare : ∀ index < siblingHeap.size, siblingHeap.kind ⟨index⟩ = .environment →
      siblingHeap.compared ⟨index⟩ = [] := by decide
  rw [Enters, bare env.index (inside_of_enters enters) environment] at enters
  cases enters

theorem answers_siblings :
    ⟨6⟩ ∈ (siblingHeap.get ⟨7⟩).children ∧ ⟨7⟩ ∈ (siblingHeap.get ⟨6⟩).children ∧
      ∃ answer, siblingHeap.identical ⟨7⟩ ⟨9⟩ = some answer :=
  ⟨by decide, by decide,
    answers_throughEnvironments throughEnvironments_siblingHeap (Or.inl (leaves_siblings ⟨7⟩))⟩

/-- Two environments, each of which is its own attribute. -/
def mirrorHeap : Heap :=
  let (environments, heap) := Environments.create Heap.initial
  let (first, heap) := heap.allocLocal environments.global
  let heap := heap.replaceAttributes first (some ⟨[("self", first)]⟩)
  let (second, heap) := heap.allocLocal environments.global
  heap.replaceAttributes second (some ⟨[("self", second)]⟩)

theorem Sound.mirrored (sound : heap.Sound) {ref : Ref} (inside : ref.index < heap.size)
    (something : ref ≠ Ref.null) : (heap.replaceAttributes ref (some ⟨[("self", ref)]⟩)).Sound := by
  refine sound.replaceAttributes ref ?_ ?_
  · intro mapping same
    cases same
    refine ⟨List.nodup_singleton "self", fun entry member => ?_⟩
    rw [List.mem_singleton.mp member]
    exact something
  · intro child member
    rw [List.mem_singleton.mp member]
    exact inside

theorem sound_mirrorHeap : mirrorHeap.Sound := by
  have context := Environments.heap_create Heap.sound_initial
  have first := context.allocLocal
    (show (Environments.create Heap.initial).1.global.index < _ by decide)
  have looking := first.mirrored (show Ref.index ⟨6⟩ < _ by decide) (by decide)
  have second := looking.allocLocal
    (show (Environments.create Heap.initial).1.global.index < _ by decide)
  exact second.mirrored (show Ref.index ⟨7⟩ < _ by decide) (by decide)

theorem identicalWithin_mirrors (depth : Nat) :
    mirrorHeap.identicalWithin depth ⟨6⟩ ⟨7⟩ = none := by
  induction depth with
  | zero => rfl
  | succ depth ih =>
      have attributes : compareAttributes (mirrorHeap.identicalWithin depth)
          (mirrorHeap.attributes ⟨6⟩) (mirrorHeap.attributes ⟨7⟩) = none := by
        change (match mirrorHeap.identicalWithin depth ⟨6⟩ ⟨7⟩ with
          | some true => some true
          | other => other) = none
        rw [ih]
      rw [identicalWithin, if_neg (by decide)]
      simp only [attributes]

/-- The comparison goes into the attributes of environments before it looks at what they are, so it
never ends for these two, although every cycle passes through one of them. -/
theorem never_answers : mirrorHeap.Sound ∧ mirrorHeap.ThroughEnvironments ∧
    (mirrorHeap.body ⟨6⟩).isLocal = true ∧ (mirrorHeap.body ⟨7⟩).isLocal = true ∧
    ∀ depth, mirrorHeap.identicalWithin depth ⟨6⟩ ⟨7⟩ = none :=
  ⟨sound_mirrorHeap, throughEnvironments_of_older (by decide), rfl, rfl, identicalWithin_mirrors⟩

end Heap

end ValueChannels
