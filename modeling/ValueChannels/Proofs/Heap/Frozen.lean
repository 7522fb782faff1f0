import ValueChannels.Proofs.Heap.Updates

/-!
Frozen values: data that is shared as deep as it goes, down to a height. Main statements: everything
that a frozen value reaches is shared data, and a value of which no object changes stays frozen and
reaches the same.
-/

namespace ValueChannels

namespace Heap

/-- All that the value reaches is shared data, and no way down is longer than the height. -/
def Frozen (heap : Heap) : Nat → Ref → Prop
  | 0, _ => False
  | height + 1, ref => heap.SharedData ref ∧ ∀ child ∈ (heap.get ref).children,
      heap.Frozen height child

variable {hidden : Ref → Prop} {heap before middle after : Heap} {height : Nat} {ref : Ref}

theorem Frozen.self (frozen : heap.Frozen height ref) : heap.SharedData ref := by
  cases height with
  | zero => cases frozen
  | succ height => exact frozen.1

theorem Frozen.mono {other : Nat} (frozen : heap.Frozen height ref) (more : height ≤ other) :
    heap.Frozen other ref := by
  induction height generalizing ref other with
  | zero => cases frozen
  | succ height ih =>
      obtain ⟨below, same⟩ : ∃ below, other = below + 1 := ⟨other - 1, by omega⟩
      rw [same] at more ⊢
      refine ⟨frozen.1, ?_⟩
      intro child member
      exact ih (frozen.2 child member) (Nat.le_of_succ_le_succ more)

theorem Frozen.child (frozen : heap.Frozen height ref) {child : Ref}
    (member : child ∈ (heap.get ref).children) : heap.Frozen height child := by
  cases height with
  | zero => cases frozen
  | succ height => exact (frozen.2 child member).mono (Nat.le_succ height)

theorem Frozen.reaches (frozen : heap.Frozen height ref) {found : Ref}
    (reached : heap.ReachesAll ref found) : heap.Frozen height found := by
  induction reached with
  | start => exact frozen
  | step _ _ member ih => exact ih.child member

theorem Closed.reaches (closed : heap.Closed hidden) (isPublic : heap.Public hidden ref)
    {found : Ref} (reached : heap.ReachesAll ref found) : heap.Public hidden found := by
  induction reached with
  | start => exact isPublic
  | step _ _ member _ => exact closed _ _ member

theorem Frozen.kept (frozen : before.Frozen height ref)
    (same : ∀ found, before.ReachesAll ref found → after.get found = before.get found) :
    after.Frozen height ref := by
  induction height generalizing ref with
  | zero => cases frozen
  | succ height ih =>
      have here := same ref .start
      refine ⟨?_, ?_⟩
      · have shared := frozen.1
        unfold SharedData isShared body at shared ⊢
        rw [here]
        exact shared
      · intro child member
        rw [here] at member
        refine ih (frozen.2 child member) ?_
        intro found reached
        exact same found (reached.head id member)

/-- What is reached is the same when every object on the way is. -/
theorem Reaches.kept {found : Ref}
    (same : ∀ found, before.ReachesAll ref found → after.get found = before.get found)
    (reached : after.ReachesAll ref found) : before.ReachesAll ref found := by
  induction reached with
  | start => exact .start
  | step _ enters member ih =>
      rw [same _ ih] at member
      exact .step ih enters member

/-! ### Marks that are there already -/

theorem put_get (heap : Heap) (ref : Ref) : heap.put ref (heap.get ref) = heap := by
  by_cases inside : ref.index < heap.objects.size
  · simp [put, get, Array.setIfInBounds, inside]
  · exact heap.put_outside _ (Nat.le_of_not_lt inside)

theorem makeShared_shared {heap : Heap} {ref : Ref} (shared : heap.isShared ref = true) :
    (heap.makeShared ref).2 = heap := by
  have same : { heap.get ref with shared := true } = heap.get ref := by
    apply Object.ext
    · rfl
    · rfl
    · exact shared.symm
  simp only [makeShared, same]
  split
  · exact heap.put_get ref
  · rfl

end Heap

end ValueChannels
