import Mathlib.Data.List.Perm.Subperm
import ValueChannels.Proofs.Expr.Sameness
import ValueChannels.Proofs.Heap.Comparison
import ValueChannels.Proofs.Heap.Editing
import ValueChannels.Proofs.Transfer.Steps

/-!
Structural equality is an equivalence that does not see the order of attributes. Two objects are
equal when they are one, or when their attributes and their bodies agree in what they refer to; this
is symmetric because names are distinct, so that two mappings of one size which one-sidedly agree
have the same names. Main statements: `identicalWithin_succ` for one step of the comparison,
`SameWithin.symm` and `SameWithin.trans` for its whole depth, `SameWithin.later` for the heaps that
come after, and `equivalence_of_sound`.
-/

namespace ValueChannels

/-! ### Data -/

theorem trans_of_forall₂ {α : Type} {relation : α → α → Prop}
    (transitive : ∀ a b c, relation a b → relation b c → relation a c) {xs ys zs : List α}
    (first : List.Forall₂ relation xs ys) (second : List.Forall₂ relation ys zs) :
    List.Forall₂ relation xs zs := by
  induction first generalizing zs with
  | nil => exact second
  | cons here _ ih =>
      cases second with
      | cons here' later => exact List.Forall₂.cons (transitive _ _ _ here here') (ih later)

namespace AtomicVector

variable {xs ys zs : AtomicVector}

def hasNaN : AtomicVector → Bool
  | .double data => data.any Double.isNaN
  | _ => false

theorem same_double {xs ys : List Double} : (AtomicVector.double xs).same (.double ys) = true ↔
    List.Forall₂ (fun x y => x.sameNumber y = true) xs ys := by
  rw [same]
  induction xs generalizing ys with
  | nil => cases ys <;> simp
  | cons x xs ih =>
      cases ys with
      | nil => simp
      | cons y ys =>
          rw [List.forall₂_cons, ← ih]
          simp only [List.length_cons, List.zipWith_cons_cons, List.all_cons, id, Bool.and_eq_true,
            beq_iff_eq, Nat.add_right_cancel_iff]
          exact and_left_comm

theorem same_iff : xs.same ys = true ↔ (xs = ys ∧ ∀ data, xs ≠ .double data) ∨
    ∃ data data', xs = .double data ∧ ys = .double data' ∧
      List.Forall₂ (fun x y => x.sameNumber y = true) data data' := by
  cases xs with
  | double data =>
      cases ys with
      | double data' => simp [same_double]
      | _ => simp [same]
  | _ => simp [same]

theorem same_self (numbers : xs.hasNaN = false) : xs.same xs = true := by
  cases xs with
  | double data =>
      refine same_double.mpr (List.forall₂_same.mpr fun value member => ?_)
      exact Double.sameNumber_self (by simpa using List.any_eq_false.mp numbers value member)
  | _ => exact beq_self_eq_true _

theorem same_symm (equal : xs.same ys = true) : ys.same xs = true := by
  rcases same_iff.mp equal with ⟨rfl, _⟩ | ⟨data, data', rfl, rfl, numbers⟩
  · exact equal
  · exact same_double.mpr (numbers.flip.imp fun _ _ => Double.sameNumber_symm)

theorem same_trans (first : xs.same ys = true) (second : ys.same zs = true) :
    xs.same zs = true := by
  rcases same_iff.mp first with ⟨rfl, _⟩ | ⟨data, data', rfl, rfl, numbers⟩
  · exact second
  · rcases same_iff.mp second with ⟨rfl, other⟩ | ⟨_, data'', same, rfl, numbers'⟩
    · exact absurd rfl (other data')
    · cases same
      refine same_double.mpr (trans_of_forall₂ ?_ numbers numbers')
      exact fun _ _ _ => Double.sameNumber_trans

end AtomicVector

/-! ### Bodies and attributes that agree -/

section Agreement

variable {same other : Ref → Ref → Prop}

/-- Whether a NaN stands in the data or the expression of the body itself. -/
def Body.hasNaN : Body → Bool
  | .vector data => data.hasNaN
  | .promise delayed => delayed.expr.hasNaN
  | .closure function => function.body.hasNaN
  | .language expr => expr.hasNaN
  | _ => false

/-- Two bodies are equal as far as one can tell without looking into the objects that they refer
to. No environment is equal to another one. -/
inductive Body.Agree (same : Ref → Ref → Prop) : Body → Body → Prop where
  | null : Agree same .null .null
  | unbound : Agree same .unbound .unbound
  | vector {xs ys : AtomicVector} (data : xs.same ys = true) : Agree same (.vector xs) (.vector ys)
  | list {xs ys : List Ref} (items : List.Forall₂ same xs ys) : Agree same (.list xs) (.list ys)
  | promise {x y : Expr} {env env' value value' : Option Ref} (expr : x.same y = true)
      (held : Option.Rel same value value') :
      Agree same (.promise ⟨x, env, value⟩) (.promise ⟨y, env', value'⟩)
  | closure {x y : Closure} (formals : x.formals = y.formals) (body : x.body.same y.body = true)
      (env : same x.env y.env) : Agree same (.closure x) (.closure y)
  | language {x y : Expr} (expr : x.same y = true) : Agree same (.language x) (.language y)
  | connection (connection : Connection) : Agree same (.connection connection)
      (.connection connection)

theorem Attributes.mem_of_find? {attributes : Option Attributes} {name : String} {value : Ref}
    (found : find? attributes name = some value) : (name, value) ∈ attributeEntries attributes := by
  rw [find?_getD] at found
  exact mem_of_lookup found

theorem Attributes.find?_of_mem {attributes : Option Attributes}
    (distinct : (namesOf attributes).Nodup) {entry : String × Ref}
    (member : entry ∈ attributeEntries attributes) :
    find? attributes entry.1 = some entry.2 := by
  rw [find?_getD]
  exact lookup_of_mem distinct member

/-- A body with elements, or the value of a promise, exchanged for related ones. -/
inductive Body.Exchanged (related : Ref → Ref → Prop) : Body → Body → Prop where
  | nothing (body : Body) : Exchanged related body body
  | elements {xs ys : List Ref} (each : List.Forall₂ related xs ys) :
      Exchanged related (.list xs) (.list ys)
  | value {expr : Expr} {env : Option Ref} {x y : Ref} (held : related x y) :
      Exchanged related (.promise ⟨expr, env, some x⟩) (.promise ⟨expr, env, some y⟩)

/-- There are as many attributes on one side as on the other, and each of the first has one of its
name, and equal to it, among the second. -/
structure Attributes.Agree (same : Ref → Ref → Prop) (xs ys : Option Attributes) : Prop where
  size : (attributeEntries xs).length = (attributeEntries ys).length
  entries : ∀ entry ∈ attributeEntries xs,
    ∃ value, find? ys entry.1 = some value ∧ same entry.2 value

namespace Body.Agree

variable {x y z : Body}

theorem imp (agree : Agree same x y)
    (each : ∀ a ∈ x.compared, ∀ b ∈ y.compared, same a b → other a b) : Agree other x y := by
  cases agree with
  | null => exact null
  | unbound => exact unbound
  | vector data => exact vector data
  | list items =>
      refine list (List.forall₂_iff_get.mpr ⟨items.length_eq, fun place left right => ?_⟩)
      exact each _ (List.getElem_mem left) _ (List.getElem_mem right)
        ((List.forall₂_iff_get.mp items).2 place left right)
  | promise expr held =>
      refine promise expr ?_
      cases held with
      | none => exact Option.Rel.none
      | some inner =>
          exact Option.Rel.some (each _ List.mem_cons_self _ List.mem_cons_self inner)
  | closure formals body env =>
      exact closure formals body (each _ List.mem_cons_self _ List.mem_cons_self env)
  | language expr => exact language expr
  | connection shown => exact connection shown

theorem refl (itself : ∀ a, same a a) (numbers : x.hasNaN = false)
    (proper : x.copiesToItself = false) : Agree same x x := by
  cases x with
  | null => exact null
  | unbound => exact unbound
  | vector data => exact vector (AtomicVector.same_self numbers)
  | list items => exact list (List.forall₂_same.mpr fun item _ => itself item)
  | environment frame => cases proper
  | promise delayed =>
      obtain ⟨expr, env, value⟩ := delayed
      refine promise (Expr.same_self expr numbers) ?_
      cases value with
      | none => exact Option.Rel.none
      | some value => exact Option.Rel.some (itself value)
  | closure function => exact closure rfl (Expr.same_self _ numbers) (itself _)
  | language expr => exact language (Expr.same_self _ numbers)
  | connection shown => exact connection shown

theorem symm (symmetric : ∀ a b, same a b → same b a) (agree : Agree same x y) :
    Agree same y x := by
  cases agree with
  | null => exact null
  | unbound => exact unbound
  | vector data => exact vector (AtomicVector.same_symm data)
  | list items => exact list (items.flip.imp fun _ _ => symmetric _ _)
  | promise expr held =>
      refine promise (Expr.same_symm _ _ expr) ?_
      cases held with
      | none => exact Option.Rel.none
      | some inner => exact Option.Rel.some (symmetric _ _ inner)
  | closure formals body env =>
      exact closure formals.symm (Expr.same_symm _ _ body) (symmetric _ _ env)
  | language expr => exact language (Expr.same_symm _ _ expr)
  | connection shown => exact connection shown

theorem trans (transitive : ∀ a b c, same a b → same b c → same a c) (first : Agree same x y)
    (second : Agree same y z) : Agree same x z := by
  cases first with
  | null => exact second
  | unbound => exact second
  | vector data =>
      cases second with
      | vector data' => exact vector (AtomicVector.same_trans data data')
  | list items =>
      cases second with
      | list items' => exact list (trans_of_forall₂ transitive items items')
  | promise expr held =>
      cases second with
      | promise expr' held' =>
          refine promise (Expr.same_trans _ _ _ expr expr') ?_
          cases held with
          | none => exact held'
          | some inner =>
              cases held' with
              | some inner' => exact Option.Rel.some (transitive _ _ _ inner inner')
  | closure formals body env =>
      cases second with
      | closure formals' body' env' =>
          exact closure (formals.trans formals') (Expr.same_trans _ _ _ body body')
            (transitive _ _ _ env env')
  | language expr =>
      cases second with
      | language expr' => exact language (Expr.same_trans _ _ _ expr expr')
  | connection shown => exact second

theorem of_exchanged (itself : ∀ a, same a a) (each : ∀ a b, other a b → same a b)
    (exchanged : Exchanged other x y) (numbers : x.hasNaN = false)
    (proper : x.copiesToItself = false) : Agree same x y := by
  cases exchanged with
  | nothing => exact refl itself numbers proper
  | elements items => exact list (items.imp each)
  | value held => exact promise (Expr.same_self _ numbers) (Option.Rel.some (each _ _ held))

end Body.Agree

namespace Attributes.Agree

variable {xs ys zs : Option Attributes}

theorem imp (agree : Agree same xs ys)
    (each : ∀ a ∈ (attributeEntries xs).map Prod.snd, ∀ b ∈ (attributeEntries ys).map Prod.snd,
      same a b → other a b) : Agree other xs ys := by
  refine ⟨agree.size, fun entry member => ?_⟩
  obtain ⟨value, found, equal⟩ := agree.entries entry member
  refine ⟨value, found, each _ (List.mem_map_of_mem member) _ ?_ equal⟩
  exact List.mem_map.mpr ⟨_, mem_of_find? found, rfl⟩

theorem names_subset (agree : Agree same xs ys) (distinct : (namesOf xs).Nodup) :
    namesOf ys ⊆ namesOf xs := by
  have among : namesOf xs ⊆ namesOf ys := by
    intro name member
    obtain ⟨entry, present, rfl⟩ := List.mem_map.mp member
    obtain ⟨value, found, _⟩ := agree.entries entry present
    exact List.mem_map.mpr ⟨_, mem_of_find? found, rfl⟩
  have all : (namesOf xs).Perm (namesOf ys) := by
    refine (List.subperm_of_subset distinct among).perm_of_length_le (Nat.le_of_eq ?_)
    rw [namesOf, namesOf, Mapping.names, Mapping.names, List.length_map, List.length_map]
    exact agree.size.symm
  exact all.symm.subset

theorem symm (symmetric : ∀ a b, same a b → same b a) (distinct : (namesOf xs).Nodup)
    (distinct' : (namesOf ys).Nodup) (agree : Agree same xs ys) : Agree same ys xs := by
  refine ⟨agree.size.symm, fun entry member => ?_⟩
  obtain ⟨opposite, present, name⟩ :=
    List.mem_map.mp (agree.names_subset distinct (List.mem_map_of_mem member))
  obtain ⟨value, found, equal⟩ := agree.entries opposite present
  rw [name, Attributes.find?_of_mem distinct' member] at found
  cases found
  exact ⟨opposite.2, name ▸ Attributes.find?_of_mem distinct present, symmetric _ _ equal⟩

theorem trans (transitive : ∀ a b c, same a b → same b c → same a c) (first : Agree same xs ys)
    (second : Agree same ys zs) : Agree same xs zs := by
  refine ⟨first.size.trans second.size, fun entry member => ?_⟩
  obtain ⟨middle, found, equal⟩ := first.entries entry member
  obtain ⟨last, found', equal'⟩ := second.entries (entry.1, middle) (mem_of_find? found)
  exact ⟨last, found', transitive _ _ _ equal equal'⟩

theorem of_exchanged {exchanged : List (String × Ref)}
    (each : List.Forall₂ (fun entry other => entry.1 = other.1 ∧ same entry.2 other.2)
      (attributeEntries xs) exchanged)
    (reordered : (attributeEntries ys).Perm exchanged) (distinct : (namesOf ys).Nodup) :
    Agree same xs ys := by
  refine ⟨each.length_eq.trans reordered.length_eq.symm, fun entry member => ?_⟩
  obtain ⟨other, present, name, equal⟩ := forall₂_right each.flip member
  refine ⟨other.2, ?_, equal⟩
  rw [name]
  exact find?_of_mem distinct (reordered.mem_iff.mpr present)

end Attributes.Agree

end Agreement

namespace Heap

variable {heap after : Heap} {a b c : Ref} {depth : Nat}

/-! ### The comparison and agreement -/

section Comparison

variable {compare : Ref → Ref → Option Bool}

theorem then_iff {found next : Option Bool} :
    (match found with
      | some true => next
      | other => other) = some true ↔ found = some true ∧ next = some true := by
  cases found with
  | none => exact iff_of_false (fun impossible => nomatch impossible) fun both => nomatch both.1
  | some answer => cases answer <;> simp

theorem compareAll_iff {xs ys : List Ref} : compareAll compare xs ys = some true ↔
    List.Forall₂ (fun x y => compare x y = some true) xs ys := by
  induction xs generalizing ys with
  | nil => cases ys <;> simp [compareAll]
  | cons x xs ih =>
      cases ys with
      | nil => simp [compareAll]
      | cons y ys =>
          rw [List.forall₂_cons, ← ih]
          exact then_iff

theorem compareEntries_iff {other : Attributes} {entries : List (String × Ref)} :
    compareEntries compare other entries = some true ↔ ∀ entry ∈ entries,
      ∃ value, other.get? entry.1 = some value ∧ compare entry.2 value = some true := by
  induction entries with
  | nil => simp [compareEntries]
  | cons entry rest ih =>
      obtain ⟨name, x⟩ := entry
      rw [List.forall_mem_cons, ← ih, compareEntries]
      cases other.get? name with
      | none => simp
      | some y =>
          simp only [Option.some.injEq, exists_eq_left']
          exact then_iff

theorem compareAttributes_iff {xs ys : Option Attributes} :
    compareAttributes compare xs ys = some true ↔
      Attributes.Agree (fun x y => compare x y = some true) xs ys := by
  have entries : compareEntries compare (ys.getD Mapping.empty) (attributeEntries xs) = some true ↔
      ∀ entry ∈ attributeEntries xs, ∃ value, Attributes.find? ys entry.1 = some value ∧
        compare entry.2 value = some true := by
    simp only [Attributes.find?_getD]
    exact compareEntries_iff
  rw [compareAttributes]
  split
  · rename_i size
    exact ⟨fun compared => ⟨size, entries.mp compared⟩, fun agree => entries.mpr agree.entries⟩
  · rename_i sizes
    refine iff_of_false ?_ fun agree => sizes agree.size
    intro impossible
    cases impossible

theorem compareBodies_iff {x y : Body} : compareBodies compare x y = some true ↔
    Body.Agree (fun a b => compare a b = some true) x y := by
  constructor
  · intro compared
    unfold compareBodies at compared
    split at compared
    · exact Body.Agree.null
    · exact Body.Agree.unbound
    · exact Body.Agree.vector (Option.some.inj compared)
    · split at compared
      · exact Body.Agree.list (compareAll_iff.mp compared)
      · cases compared
    · rename_i x y
      obtain ⟨expr, env, value⟩ := x
      obtain ⟨expr', env', value'⟩ := y
      split at compared
      · rename_i same
        refine Body.Agree.promise same ?_
        cases value with
        | none =>
            cases value' with
            | none => exact Option.Rel.none
            | some other => cases compared
        | some inner =>
            cases value' with
            | none => cases compared
            | some other => exact Option.Rel.some compared
      · cases compared
    · split at compared
      · rename_i same
        exact Body.Agree.closure same.1 same.2 compared
      · cases compared
    · exact Body.Agree.language (Option.some.inj compared)
    · rename_i x y
      rw [of_decide_eq_true (Option.some.inj compared)]
      exact Body.Agree.connection y
    · cases compared
  · intro agree
    cases agree with
    | null => rfl
    | unbound => rfl
    | vector data => exact congrArg some data
    | list items =>
        rw [compareBodies, if_pos items.length_eq]
        exact compareAll_iff.mpr items
    | promise expr held =>
        rw [compareBodies, if_pos expr]
        cases held with
        | none => rfl
        | some inner => exact inner
    | closure formals body env =>
        rw [compareBodies, if_pos ⟨formals, body⟩]
        exact env
    | language expr => exact congrArg some expr
    | connection shown => exact congrArg some (decide_eq_true rfl)

end Comparison

/-- The comparison finds two objects equal without going deeper than this. -/
def SameWithin (heap : Heap) (depth : Nat) (a b : Ref) : Prop :=
  heap.identicalWithin depth a b = some true

/-- Two objects are equal when they are one, or when they agree in their attributes and their
bodies. -/
theorem identicalWithin_succ : heap.SameWithin (depth + 1) a b ↔ a = b ∨
    Attributes.Agree (heap.SameWithin depth) (heap.attributes a) (heap.attributes b) ∧
      Body.Agree (heap.SameWithin depth) (heap.body a) (heap.body b) := by
  rw [SameWithin, identicalWithin]
  split
  · rename_i same
    exact iff_of_true rfl (Or.inl same)
  · rename_i apart
    rw [or_iff_right apart]
    exact then_iff.trans (and_congr compareAttributes_iff compareBodies_iff)

/-! ### The three laws -/

namespace SameWithin

theorem refl (heap : Heap) (depth : Nat) (a : Ref) : heap.SameWithin (depth + 1) a a :=
  identicalWithin_succ.mpr (Or.inl rfl)

theorem deeper {more : Nat} (same : heap.SameWithin depth a b) (less : depth ≤ more) :
    heap.SameWithin more a b :=
  identicalWithin_mono less same

theorem symm (sound : heap.Sound) (same : heap.SameWithin depth a b) :
    heap.SameWithin depth b a := by
  induction depth generalizing a b with
  | zero => cases same
  | succ depth ih =>
      rw [identicalWithin_succ] at same ⊢
      refine same.imp Eq.symm fun agree => ⟨?_, agree.2.symm fun _ _ => ih⟩
      exact agree.1.symm (fun _ _ => ih) (sound.proper a).1 (sound.proper b).1

theorem trans (first : heap.SameWithin depth a b) (second : heap.SameWithin depth b c) :
    heap.SameWithin depth a c := by
  induction depth generalizing a b c with
  | zero => cases first
  | succ depth ih =>
      rw [identicalWithin_succ] at first second ⊢
      rcases first with same | agree
      · rw [same]
        exact second
      · rcases second with same | agree'
        · rw [← same]
          exact Or.inr agree
        · exact Or.inr ⟨agree.1.trans (fun _ _ _ => ih) agree'.1,
            agree.2.trans (fun _ _ _ => ih) agree'.2⟩

/-- Equal objects stay equal as long as the objects of the heap stay what they are. -/
theorem later (sound : heap.Sound)
    (kept : ∀ ref, ref.index < heap.size → after.get ref = heap.get ref)
    (inside : a.index < heap.size) (inside' : b.index < heap.size)
    (same : heap.SameWithin depth a b) : after.SameWithin depth a b := by
  induction depth generalizing a b with
  | zero => cases same
  | succ depth ih =>
      have there {ref child : Ref} (place : ref.index < heap.size)
          (member : child ∈ heap.compared ref) : child.index < heap.size :=
        sound.closed ref place child (children_of_enters member)
      rw [identicalWithin_succ] at same ⊢
      rw [attributes, attributes, body, body, kept a inside, kept b inside']
      refine same.imp_right fun agree => ⟨agree.1.imp ?_, agree.2.imp ?_⟩
      · intro x member y member'
        exact ih (there inside (List.mem_append_right _ member))
          (there inside' (List.mem_append_right _ member'))
      · intro x member y member'
        exact ih (there inside (List.mem_append_left _ member))
          (there inside' (List.mem_append_left _ member'))

end SameWithin

/-! ### Values that are made anew -/

/-- A value made anew: an object with the body, on which attributes are set one after the other. -/
def assemble (heap : Heap) (body : Body) (entries : List (String × Ref)) : Ref × Heap :=
  entries.foldl (fun made entry => made.2.setAttribute made.1 entry.1 entry.2) (heap.alloc body)

/-- A heap has one more object, with this body and these attributes. -/
structure Assembled (heap : Heap) (body : Body) (mapping : Attributes) (made : Ref × Heap) :
    Prop where
  place : made.1.index = heap.size
  size : made.2.size = heap.size + 1
  content : made.2.get made.1 =
    { body, attributes := Attributes.normalize (some mapping), shared := false }
  kept : ∀ ref, ref.index < heap.size → made.2.get ref = heap.get ref

theorem Assembled.set {body : Body} {mapping : Attributes} {made : Ref × Heap}
    (assembled : Assembled heap body mapping made) (entry : String × Ref) :
    Assembled heap body (Attributes.set mapping entry.1 entry.2)
      (made.2.setAttribute made.1 entry.1 entry.2) := by
  have unshared : made.2.isShared made.1 = false := by
    rw [isShared, assembled.content]
  have inside : made.1.index < made.2.size := by
    rw [assembled.place, assembled.size]
    exact Nat.lt_succ_self _
  have current : (made.2.attributes made.1).getD Mapping.empty = mapping := by
    rw [attributes, assembled.content, Attributes.getD_normalize]
    rfl
  simp only [setAttribute, makePrivate_unshared unshared, current]
  constructor
  · exact assembled.place
  · rw [size_replaceAttributes, assembled.size]
  · rw [get_replaceAttributes_same _ _ inside, assembled.content]
  · intro ref there
    rw [get_replaceAttributes_other _ _ fun same => ?_]
    · exact assembled.kept ref there
    · rw [same, assembled.place] at there
      exact Nat.lt_irrefl _ there

theorem assembled (heap : Heap) (body : Body) (entries : List (String × Ref)) :
    Assembled heap body (Attributes.ofList entries) (heap.assemble body entries) := by
  have first : Assembled heap body Mapping.empty (heap.alloc body) :=
    ⟨rfl, heap.size_alloc body, heap.get_alloc_new body, fun _ => heap.get_alloc_old body⟩
  rw [assemble, Attributes.ofList]
  generalize Mapping.empty = mapping, heap.alloc body = made at first ⊢
  induction entries generalizing mapping made with
  | nil => exact first
  | cons entry rest ih => exact ih _ _ (first.set entry)

/-- Two equal objects of the heap, each of which may stand in the place of the other. -/
def Stands (heap : Heap) (a b : Ref) : Prop :=
  (a.index < heap.size ∧ b.index < heap.size) ∧ heap.identical a b = some true

/-- What a value is made anew from: its body, with elements or the value of a promise exchanged for
equal ones, and its attributes in any order, with values exchanged for equal ones. -/
structure Resembles (heap : Heap) (original : Ref) (body : Body) (entries : List (String × Ref)) :
    Prop where
  inside : original.index < heap.size
  proper : (heap.body original).copiesToItself = false
  numbers : (heap.body original).hasNaN = false
  body : Body.Exchanged heap.Stands (heap.body original) body
  attributes : ∃ exchanged, entries.Perm exchanged ∧
    List.Forall₂ (fun entry other => entry.1 = other.1 ∧ heap.Stands entry.2 other.2)
      (attributeEntries (heap.attributes original)) exchanged

theorem Sound.eq_null (sound : heap.Sound) (stands : heap.Stands a Ref.null) : a = Ref.null := by
  rcases identicalWithin_succ.mp stands.2 with same | agree
  · exact same
  · have null : heap.body Ref.null = .null := (sound.null Ref.null stands.1.2).mpr rfl
    have bodies := agree.2
    rw [null] at bodies
    generalize content : heap.body a = body at bodies
    cases bodies with
    | null => exact (sound.null a stands.1.1).mp content

theorem names_of_forall₂ {entries exchanged : List (String × Ref)}
    {related : Ref → Ref → Prop}
    (each : List.Forall₂ (fun entry other => entry.1 = other.1 ∧ related entry.2 other.2)
      entries exchanged) : exchanged.map Prod.fst = entries.map Prod.fst := by
  induction each with
  | nil => rfl
  | cons here _ ih => rw [List.map_cons, List.map_cons, here.1, ih]

theorem Resembles.entries_ofList (sound : heap.Sound) {body : Body}
    {entries : List (String × Ref)} (resembles : heap.Resembles a body entries) :
    (Attributes.ofList entries).entries = entries := by
  obtain ⟨exchanged, reordered, each⟩ := resembles.attributes
  apply Attributes.entries_ofList
  · rw [(reordered.map Prod.fst).nodup_iff, names_of_forall₂ each]
    exact (sound.proper a).1
  · intro entry member null
    obtain ⟨original, found, _, stands⟩ := forall₂_right each (reordered.mem_iff.mp member)
    rw [null] at stands
    exact (sound.proper a).2 original found (sound.eq_null stands)

theorem Assembled.same (sound : heap.Sound) {body : Body} {mapping : Attributes}
    {made : Ref × Heap} (assembled : Assembled heap body mapping made)
    (stands : heap.Stands a b) : made.2.SameWithin (made.2.size * made.2.size) a b := by
  have more : heap.size * heap.size + 1 ≤ made.2.size * made.2.size := by
    rw [assembled.size, Nat.add_mul, Nat.mul_add]
    omega
  exact (SameWithin.later sound assembled.kept stands.1.1 stands.1.2 stands.2).deeper more

/-- A value is equal to every one that is made from what resembles it. -/
theorem Resembles.identical_assemble (sound : heap.Sound) {body : Body}
    {entries : List (String × Ref)} (resembles : heap.Resembles a body entries) :
    (heap.assemble body entries).2.identical a (heap.assemble body entries).1 = some true := by
  have whole := resembles.entries_ofList sound
  have assembled := heap.assembled body entries
  generalize heap.assemble body entries = made at assembled ⊢
  obtain ⟨exchanged, reordered, each⟩ := resembles.attributes
  have before := assembled.kept a resembles.inside
  have itself (x : Ref) : made.2.SameWithin (made.2.size * made.2.size) x x := by
    refine (SameWithin.refl made.2 0 x).deeper ?_
    rw [assembled.size]
    exact Nat.mul_pos (Nat.succ_pos _) (Nat.succ_pos _)
  have attached : attributeEntries (made.2.attributes made.1) = entries := by
    rw [Heap.attributes, assembled.content, Attributes.entries_normalize_some, whole]
  refine identicalWithin_succ.mpr (Or.inr ⟨?_, ?_⟩)
  · rw [Heap.attributes, before]
    apply Attributes.Agree.of_exchanged (each.imp fun _ _ both =>
      ⟨both.1, assembled.same sound both.2⟩)
    · rw [attached]
      exact reordered
    · change ((attributeEntries (made.2.attributes made.1)).map Prod.fst).Nodup
      rw [attached, (reordered.map Prod.fst).nodup_iff, names_of_forall₂ each]
      exact (sound.proper a).1
  · rw [Heap.body, Heap.body, before, assembled.content]
    exact Body.Agree.of_exchanged itself (fun _ _ => assembled.same sound) resembles.body
      resembles.numbers resembles.proper

/-- Structural equality is an equivalence. Two values compared the one way and the other get the
same answer, which there is when the comparison of one of them has an end; and a value is equal to
what is made anew from it, whatever the order of the attributes and whichever of them, or of the
elements, or the value of the promise, are exchanged for equal ones. -/
theorem equivalence_of_sound (sound : heap.Sound) :
    (∀ a, heap.identical a a = some true) ∧
    (∀ a b, heap.Straight a ∨ heap.Straight b → ∃ answer,
      heap.identical a b = some answer ∧ heap.identical b a = some answer) ∧
    (∀ a b c, heap.identical a b = some true → heap.identical b c = some true →
      heap.identical a c = some true) ∧
    ∀ a body entries, heap.Resembles a body entries →
      (heap.assemble body entries).2.identical a (heap.assemble body entries).1 = some true := by
  refine ⟨SameWithin.refl heap _, ?_, fun _ _ _ => SameWithin.trans, ?_⟩
  · intro a b straight
    obtain ⟨answer, forth⟩ := answers_of_straight straight
    obtain ⟨answer', back⟩ := answers_of_straight straight.symm
    cases answer with
    | true => exact ⟨true, forth, SameWithin.symm sound forth⟩
    | false =>
        cases answer' with
        | true =>
            have same : heap.identical a b = some true := SameWithin.symm sound back
            rw [forth] at same
            cases same
        | false => exact ⟨false, forth, back⟩
  · exact fun a body entries resembles => resembles.identical_assemble sound

/-- Two vectors of one number, and a list of the first with both of them as attributes. -/
def twinHeap : Heap :=
  let (first, heap) := Heap.initial.alloc (.vector (.integer [7]))
  let (second, heap) := heap.alloc (.vector (.integer [7]))
  let (list, heap) := heap.alloc (.list [first])
  heap.replaceAttributes list (some ⟨[("left", first), ("right", second)]⟩)

theorem sound_twinHeap : twinHeap.Sound := by
  have vectors := (sound_initial.allocVector (.integer [7])).allocVector (.integer [7])
  refine (@Sound.alloc _ vectors (.list [⟨2⟩]) ?_ ?_ ?_ ?_).replaceAttributes ⟨4⟩ ?_ ?_
  · exact fun impossible => nomatch impossible
  · exact fun impossible => nomatch impossible
  · exact fun _ impossible => nomatch impossible
  · decide
  · intro mapping same
    cases same
    decide
  · decide

theorem stands_twins (a b : Ref) (twins : a.index ∈ [2, 3] ∧ b.index ∈ [2, 3]) :
    twinHeap.Stands a b := by
  obtain ⟨⟨_⟩, ⟨_⟩⟩ := a, b
  simp only [List.mem_cons, List.not_mem_nil, or_false] at twins
  obtain ⟨rfl | rfl, rfl | rfl⟩ := twins <;> exact ⟨by decide, rfl⟩

/-- The list has an end, and is made anew from the other twin with the attributes the other way
round and both exchanged. -/
theorem equivalence_twins :
    let made := twinHeap.assemble (.list [⟨3⟩]) [("right", ⟨2⟩), ("left", ⟨3⟩)]
    twinHeap.Sound ∧ twinHeap.attributes ⟨4⟩ = some ⟨[("left", ⟨2⟩), ("right", ⟨3⟩)]⟩ ∧
      made.2.identical ⟨4⟩ made.1 = some true ∧
      ∃ answer, twinHeap.identical ⟨4⟩ ⟨2⟩ = some answer ∧
        twinHeap.identical ⟨2⟩ ⟨4⟩ = some answer := by
  obtain ⟨_, symmetric, _, anew⟩ := equivalence_of_sound sound_twinHeap
  refine ⟨sound_twinHeap, rfl, anew _ _ _ ?_, symmetric _ _ (Or.inl ?_)⟩
  · refine ⟨by decide, rfl, rfl, .elements ?_, [("left", ⟨3⟩), ("right", ⟨2⟩)], by decide, ?_⟩
    · exact .cons (stands_twins _ _ (by decide)) .nil
    · exact .cons ⟨rfl, stands_twins _ _ (by decide)⟩
        (.cons ⟨rfl, stands_twins _ _ (by decide)⟩ .nil)
  · apply (throughEnvironments_of_older (by decide)).straight
    intro env _ environment cycle
    have plain : ∀ index < twinHeap.size, twinHeap.kind ⟨index⟩ ≠ .environment := by decide
    obtain ⟨next, enters, _⟩ := Relation.TransGen.head'_iff.mp cycle
    exact plain env.index (inside_of_enters enters) environment

end Heap

end ValueChannels
