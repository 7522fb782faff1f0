import ValueChannels.Proofs.Transfer.Traversal

/-!
Why a value is not converted. Whatever the codec and however deep the part that it does not carry,
the sender is told that the value cannot be written. Main statements: `refuses_ofValue`,
`refused_encoded`.
-/

namespace ValueChannels

/-- What the conversion of a value fails with: the codec does not carry something in it, or the value
has a cycle that passes through no local environment. -/
def ChannelError.Refuses (err : ChannelError) : Prop :=
  err = .endless ∨ ∃ kind reason, err = .serialization kind reason

namespace Message

theorem steps_refuses (context : Context) :
    Steps context (fun _ _ => True) ChannelError.Refuses where
  refl _ := trivial
  trans _ _ := trivial
  mark _ _ := trivial
  copy _ _ := trivial
  encode _ _ := trivial
  endless := Or.inl rfl
  unwritten kind reason := Or.inr ⟨kind, reason, rfl⟩

/-- A conversion that fails refuses the value. -/
theorem refuses_ofValue {context : Context} {heap : Heap} {value : Ref} {err : ChannelError}
    (failed : (ofValue context heap value).1 = .error err) : err.Refuses :=
  ((steps_refuses context).ofValue heap value).2 err failed

/-! ### Encoded values -/

section Encoded

variable {context : Context} {heap : Heap} {ref : Ref}

/-- A value that travels in encoded form is not looked into any further. -/
theorem ends_encoded {depth : Nat} {before : ConvertState} {done : Message → ConvertState → Prop}
    {failed : ChannelError → ConvertState → Prop}
    (encoded : (before.heap.body ref).isEncoded = true)
    (ends : Ends (convertEncoded context (convertWithin context depth) ref) before done failed) :
    Ends (convertWithin context (depth + 1) ref) before done failed := by
  rw [convertWithin]
  refine Ends.bind (ends_heap ?_)
  cases body : before.heap.body ref with
  | environment frame =>
      rw [body] at encoded
      have isOther : ¬frame.kind.isLocal = true := by
        simpa [Body.isEncoded] using encoded
      simp only [if_neg isOther]
      exact ends
  | closure _ | language _ | connection _ => exact ends
  | null | unbound | vector _ | list _ | promise _ =>
      rw [body] at encoded
      cases encoded

theorem ofValue_encoded (done : Except ChannelError Message → Prop)
    (encoded : (heap.body ref).isEncoded = true)
    (ends : ∀ convert, Ends (convertEncoded context convert ref) { heap, environments := [] }
      (fun message _ => done (.ok message)) (fun err _ => done (.error err))) :
    done (ofValue context heap ref).1 := by
  obtain ⟨depth, positive⟩ := Node.depthBound_eq_succ heap
  have whole : Ends (convertWithin context (depth + 1) ref) { heap, environments := [] }
      (fun message _ => done (.ok message)) (fun err _ => done (.error err)) :=
    ends_encoded encoded (ends (convertWithin context depth))
  unfold ofValue
  rw [positive]
  unfold Ends at whole
  split at whole
  · rename_i message state ended
    rw [ended]
    exact whole
  · rename_i err state ended
    rw [ended]
    exact whole

/-- A value that the codec does not write is refused for the reason that the codec gives. -/
theorem refused_encoded {reason : CodecError} (encoded : (heap.body ref).isEncoded = true)
    (unwritten : (blobOf context.codec heap ref).1 = .error reason) (ending : reason ≠ .endless) :
    (ofValue context heap ref).1 = .error (.serialization (heap.kind ref) reason) := by
  refine ofValue_encoded (fun outcome => outcome = _) encoded fun convert => ?_
  unfold convertEncoded
  refine Ends.bind (ends_heap (Ends.bind (ends_onHeap ?_)))
  rw [unwritten]
  cases reason with
  | endless => exact absurd rfl ending
  | _ => exact Ends.throw rfl

theorem accepted_encoded {blob : Bytes} (encoded : (heap.body ref).isEncoded = true)
    (written : (blobOf context.codec heap ref).1 = .ok blob) (bare : heap.attributes ref = none) :
    (ofValue context heap ref).1 = .ok (.encoded (heap.kind ref) blob none) := by
  refine ofValue_encoded (fun outcome => outcome = _) encoded fun convert => ?_
  unfold convertEncoded
  refine Ends.bind (ends_heap (Ends.bind (ends_onHeap ?_)))
  rw [written, bare]
  exact Ends.bind (Ends.pure (Ends.pure rfl))

end Encoded

end Message

end ValueChannels
