import Mathlib.Data.Finset.Card
import Mathlib.Data.Finset.Range
import Mathlib.Logic.Relation
import ValueChannels.Graph.Encode
import ValueChannels.Proofs.Heap.Paths

/-!
Values whose cycles all pass through local environments. Between two local environments that are
entered for the first time no object comes twice, so a bounded depth is enough to go through the
whole value. Main statements: what an object needs of that depth, `budget_onward` where no local
environment is entered and `budget_enter` where one is.
-/

namespace ValueChannels.Heap

/-- A way from an object that is no local environment. -/
def Onward (heap : Heap) (ways : Ref → List (Edge × Ref)) (ref child : Ref) : Prop :=
  (heap.body ref).isLocal = false ∧ child ∈ (ways ref).map Prod.snd

/-- Every cycle that the value leads to passes through a local environment. -/
def Grounded (heap : Heap) (ways : Ref → List (Edge × Ref)) (start : Ref) : Prop :=
  ∀ ref, Leads ways start ref → ¬Relation.TransGen (heap.Onward ways) ref ref

/-- All that the value leads to is in the heap, and the ways out of each object are told apart. -/
structure Walkable (heap : Heap) (ways : Ref → List (Edge × Ref)) (start : Ref) : Prop where
  inside : ∀ ref, Leads ways start ref → ref.index < heap.size
  distinct : ∀ ref, Leads ways start ref → ((ways ref).map Prod.fst).Nodup

open Classical in
/-- The objects that are led to without leaving a local environment. -/
noncomputable def ahead (heap : Heap) (ways : Ref → List (Edge × Ref)) (ref : Ref) : Finset Nat :=
  (Finset.range heap.size).filter fun index =>
    Relation.ReflTransGen (heap.Onward ways) ref ⟨index⟩

noncomputable def rank (heap : Heap) (ways : Ref → List (Edge × Ref)) (ref : Ref) : Nat :=
  (heap.ahead ways ref).card

/-- How deep one may have to go from an object when so many local environments have been entered. -/
noncomputable def budget (heap : Heap) (ways : Ref → List (Edge × Ref)) (entered : Nat)
    (ref : Ref) : Nat :=
  (heap.size - entered) * (heap.size + 1) + heap.rank ways ref

variable {heap : Heap} {ways : Ref → List (Edge × Ref)} {start ref child : Ref}

theorem Sound.walkable_links (sound : heap.Sound) (inside : start.index < heap.size) :
    heap.Walkable heap.links start where
  inside _ leads := sound.leads_links inside leads
  distinct _ leads := sound.nodup_links (sound.leads_links inside leads)

theorem Walkable.step (walkable : heap.Walkable ways start) (leads : Leads ways start ref)
    (member : child ∈ (ways ref).map Prod.snd) : Leads ways start child :=
  leads.step (walkable.distinct ref leads) member

/-- Ways that lead down in rank, unless they leave a local environment, make no other cycles. -/
theorem grounded_of_rank (among : Ref → Prop) (rank : Ref → Nat) (first : among start)
    (closed : ∀ ref, among ref → ∀ child ∈ (ways ref).map Prod.snd, among child)
    (down : ∀ ref, among ref → (heap.body ref).isLocal = false →
      ∀ child ∈ (ways ref).map Prod.snd, rank child < rank ref) : heap.Grounded ways start := by
  intro ref leads cycle
  have here : among ref := leads.induct first closed
  have falls {other : Ref} (path : Relation.TransGen (heap.Onward ways) ref other) :
      among other ∧ rank other < rank ref := by
    induction path with
    | single onward => exact ⟨closed _ here _ onward.2, down _ here onward.1 _ onward.2⟩
    | tail _ onward ih =>
        exact ⟨closed _ ih.1 _ onward.2, Nat.lt_trans (down _ ih.1 onward.1 _ onward.2) ih.2⟩
  exact Nat.lt_irrefl _ (falls cycle).2

/-- An object leads nowhere but where one of another heap leads. -/
structure Imitates (heap : Heap) (others : Ref → List (Edge × Ref)) (other : Ref) (origin : Heap)
    (ways : Ref → List (Edge × Ref)) (ref : Ref) : Prop where
  isLocal : (heap.body other).isLocal = (origin.body ref).isLocal
  ways : ∀ child ∈ (others other).map Prod.snd, child ∈ (ways ref).map Prod.snd

/-- What is led to from an object of one heap is, but for that object itself, led to from the value
in another heap, where an object stands in for it. -/
structure Follows (heap : Heap) (others : Ref → List (Edge × Ref)) (bare : Ref) (origin : Heap)
    (ways : Ref → List (Edge × Ref)) (start ref : Ref) : Prop where
  leads : Leads ways start ref
  place : Leads ways start bare → bare = ref
  head : heap.Imitates others bare origin ways ref
  tail : ∀ other ≠ bare, Leads ways start other → heap.Imitates others other origin ways other

namespace Follows

variable {origin : Heap} {others : Ref → List (Edge × Ref)} {bare other : Ref}

theorem leads_or (follows : heap.Follows others bare origin ways start ref)
    (walkable : origin.Walkable ways start) (leads : Leads others bare other) :
    other = bare ∨ Leads ways start other := by
  refine leads.induct (motive := fun other => other = bare ∨ Leads ways start other)
    (Or.inl rfl) ?_
  intro found known child member
  by_cases same : found = bare
  · rw [same] at member
    exact Or.inr (walkable.step follows.leads (follows.head.ways child member))
  · have within := known.resolve_left same
    exact Or.inr (walkable.step within ((follows.tail found same within).ways child member))

theorem grounded (follows : heap.Follows others bare origin ways start ref)
    (walkable : origin.Walkable ways start) (grounded : origin.Grounded ways start) :
    heap.Grounded others bare := by
  have onward {first next : Ref} (leads : Leads ways start first)
      (step : heap.Onward others first next) :
      origin.Onward ways first next ∧ Leads ways start next := by
    have imitates : heap.Imitates others first origin ways first := by
      by_cases same : first = bare
      · have place := follows.place (same ▸ leads)
        rw [same]
        have head := follows.head
        rwa [← place] at head
      · exact follows.tail first same leads
    have member := imitates.ways next step.2
    exact ⟨⟨imitates.isLocal ▸ step.1, member⟩, walkable.step leads member⟩
  have within {first last : Ref} (leads : Leads ways start first)
      (path : Relation.TransGen (heap.Onward others) first last) :
      Relation.TransGen (origin.Onward ways) first last ∧ Leads ways start last := by
    induction path with
    | single step =>
        obtain ⟨step, found⟩ := onward leads step
        exact ⟨.single step, found⟩
    | tail _ step ih =>
        obtain ⟨step, found⟩ := onward ih.2 step
        exact ⟨ih.1.tail step, found⟩
  intro found leads cycle
  -- Whoever comes back has left the object at which the walk began.
  have known : Leads ways start found := by
    rcases follows.leads_or walkable leads with same | known
    · rw [same] at cycle ⊢
      obtain ⟨next, step, rest⟩ := Relation.TransGen.head'_iff.mp cycle
      have first := walkable.step follows.leads (follows.head.ways next step.2)
      rcases Relation.reflTransGen_iff_eq_or_transGen.mp rest with back | more
      · rwa [back]
      · exact (within first more).2
    · exact known
  exact grounded found known (within known cycle).1

end Follows

theorem mem_ahead {index : Nat} : index ∈ heap.ahead ways ref ↔
    index < heap.size ∧ Relation.ReflTransGen (heap.Onward ways) ref ⟨index⟩ := by
  simp only [ahead, Finset.mem_filter, Finset.mem_range]

theorem rank_le (heap : Heap) (ways : Ref → List (Edge × Ref)) (ref : Ref) :
    heap.rank ways ref ≤ heap.size := by
  have inside : heap.ahead ways ref ⊆ Finset.range heap.size :=
    fun _ member => Finset.mem_range.mpr (mem_ahead.mp member).1
  have most := Finset.card_le_card inside
  rw [Finset.card_range] at most
  exact most

theorem rank_pos (inside : ref.index < heap.size) : 0 < heap.rank ways ref :=
  Finset.card_pos.mpr ⟨ref.index, mem_ahead.mpr ⟨inside, .refl⟩⟩

/-- An object that does not lead back to itself leads to more objects than the next one does. -/
theorem rank_onward (inside : ref.index < heap.size) (onward : heap.Onward ways ref child)
    (straight : ¬Relation.TransGen (heap.Onward ways) ref ref) :
    heap.rank ways child < heap.rank ways ref := by
  have less : heap.ahead ways child ⊆ heap.ahead ways ref := by
    intro index member
    obtain ⟨there, found⟩ := mem_ahead.mp member
    exact mem_ahead.mpr ⟨there, .head onward found⟩
  -- The object itself is ahead of it, but it is not ahead of the next one.
  apply Finset.card_lt_card
  rw [Finset.ssubset_iff_of_subset less]
  refine ⟨ref.index, mem_ahead.mpr ⟨inside, .refl⟩, ?_⟩
  intro back
  exact straight (Relation.TransGen.head' onward (mem_ahead.mp back).2)

theorem locals_le_size {envs : List Ref} (distinct : envs.Nodup)
    (locals : ∀ env ∈ envs, (heap.body env).isLocal = true) : envs.length ≤ heap.size := by
  have numbers : (envs.map Ref.index).Nodup := distinct.map fun _ _ => Heap.ref_ext
  have below : (envs.map Ref.index) ⊆ List.range heap.size := by
    intro index member
    obtain ⟨env, present, rfl⟩ := List.mem_map.mp member
    have isLocal := locals env present
    have inside : env.index < heap.size := by
      apply heap.inside_of_body
      intro null
      rw [null] at isLocal
      cases isLocal
    exact List.mem_range.mpr inside
  have most := (List.subperm_of_subset numbers below).length_le
  rw [List.length_map, List.length_range] at most
  exact most

theorem budget_start (heap : Heap) (ways : Ref → List (Edge × Ref)) (ref : Ref) :
    heap.budget ways 0 ref ≤ Node.depthBound heap := by
  have most := heap.rank_le ways ref
  rw [budget, Node.depthBound, Nat.sub_zero, Nat.add_mul heap.size 1, Nat.one_mul]
  omega

theorem budget_pos (ways : Ref → List (Edge × Ref)) (entered : Nat)
    (inside : ref.index < heap.size) : 0 < heap.budget ways entered ref :=
  Nat.add_pos_right _ (rank_pos inside)

theorem budget_later (heap : Heap) (ways : Ref → List (Edge × Ref)) (ref : Ref)
    {entered later : Nat} (more : entered ≤ later) :
    heap.budget ways later ref ≤ heap.budget ways entered ref := by
  apply Nat.add_le_add_right
  exact Nat.mul_le_mul_right _ (Nat.sub_le_sub_left more _)

theorem budget_onward (entered : Nat) (inside : ref.index < heap.size)
    (onward : heap.Onward ways ref child)
    (straight : ¬Relation.TransGen (heap.Onward ways) ref ref) :
    heap.budget ways entered child < heap.budget ways entered ref :=
  Nat.add_lt_add_left (rank_onward inside onward straight) _

/-- When one more local environment is entered, every object is within reach again. -/
theorem budget_enter (ways : Ref → List (Edge × Ref)) (child : Ref) {entered : Nat}
    (room : entered < heap.size) (inside : ref.index < heap.size) :
    heap.budget ways (entered + 1) child < heap.budget ways entered ref := by
  have most := heap.rank_le ways child
  have least : 0 < heap.rank ways ref := rank_pos inside
  have left : heap.size - entered = heap.size - (entered + 1) + 1 := by omega
  rw [budget, budget, left, Nat.add_mul _ 1, Nat.one_mul]
  omega

end ValueChannels.Heap
