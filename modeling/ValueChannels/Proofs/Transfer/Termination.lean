import ValueChannels.Proofs.Transfer.Sharing

/-!
Values that come to an end. Whoever prepares or writes a value goes through all that it leads to,
and is stopped only where a local environment comes back; every encoded part begins anew, with no
environment met so far. Main statement: `Message.ends_of_grounded`, for values whose cycles all
pass through local environments.
-/

namespace ValueChannels

/-- The ways out of an object into all that its body holds. An unevaluated promise that has no
environment belongs to the global one. -/
def Body.ways (global : Ref) : Body → List (Edge × Ref)
  | .promise { expr := _, env := none, value := none } => [(.environment, global)]
  | body => body.links

theorem Body.ways_links {body : Body} (global : Ref) {child : Ref}
    (member : child ∈ body.links.map Prod.snd) : child ∈ (body.ways global).map Prod.snd := by
  unfold Body.ways
  split
  · cases member
  · exact member

theorem Body.ways_edges {body : Body} {global child : Ref}
    (member : child ∈ (body.edges global).map Prod.snd) :
    child ∈ (body.ways global).map Prod.snd := by
  cases body with
  | promise delayed =>
      obtain ⟨expr, env, value⟩ := delayed
      cases value with
      | some value =>
          refine Body.ways_links global ?_
          rw [List.mem_singleton.mp member, Body.links, List.map_append]
          exact List.mem_append_right _ List.mem_cons_self
      | none =>
          cases env with
          | some env => exact member
          | none => exact member
  | list items => exact member
  | environment frame => exact member
  | _ => cases member

namespace Heap

/-- All that an object leads to: what its body holds, and its attributes. -/
def ways (heap : Heap) (global ref : Ref) : List (Edge × Ref) :=
  (heap.body ref).ways global ++ attributeLinks (heap.attributes ref)

variable {heap : Heap} {global value ref child : Ref}

theorem ways_of_links (global : Ref) (member : child ∈ (heap.links ref).map Prod.snd) :
    child ∈ (heap.ways global ref).map Prod.snd := by
  rw [links] at member
  split at member
  · cases member
  · rw [List.map_append, List.mem_append] at member
    rw [ways, List.map_append, List.mem_append]
    exact member.imp (Body.ways_links global) id

theorem ways_of_conveyed (member : child ∈ heap.conveyed global ref) :
    child ∈ (heap.ways global ref).map Prod.snd := by
  rw [conveyed, carried, List.map_append, List.mem_append] at member
  rw [ways, List.map_append, List.mem_append]
  exact member.imp Body.ways_edges id

theorem distinct_ways (global : Ref) {body : Body}
    (names : ∀ frame, body = .environment frame → frame.bindings.names.Nodup) :
    Distinct ((body.ways global).map Prod.fst) := by
  unfold Body.ways
  split
  · simp [Distinct]
  · exact distinct_links names

namespace Sound

theorem ways_inside (sound : heap.Sound) (there : global.index < heap.size)
    (inside : ref.index < heap.size) (member : child ∈ (heap.ways global ref).map Prod.snd) :
    child.index < heap.size := by
  rw [ways, List.map_append, List.mem_append] at member
  rcases member with held | attached
  · unfold Body.ways at held
    split at held
    · rw [List.mem_singleton.mp held]
      exact there
    · exact sound.closed ref inside child (List.mem_append_left _ (children_of_body held))
  · rw [targets_attributeLinks] at attached
    exact sound.closed ref inside child (List.mem_append_right _ attached)

theorem walkable_ways (sound : heap.Sound) (there : global.index < heap.size)
    (inside : value.index < heap.size) : heap.Walkable (heap.ways global) value where
  inside _ leads :=
    leads.induct inside fun _ within _ member => sound.ways_inside there within member
  distinct ref leads := by
    have within := leads.induct (motive := fun ref => ref.index < heap.size) inside
      fun _ within _ member => sound.ways_inside there within member
    exact nodup_attributeLinks (sound.object ref within)
      (distinct_ways global fun frame body => ((sound.object ref within).frame frame body).1)

end Sound

end Heap

/-! ### Writing -/

namespace Codec

variable {heap : Heap} {global value : Ref}

theorem follows_links (heap : Heap) (global value : Ref) :
    heap.Follows heap.links value heap (heap.ways global) value value where
  leads := .refl _ _
  place _ := rfl
  head := ⟨rfl, fun _ member => Heap.ways_of_links global member⟩
  tail _ _ _ := ⟨rfl, fun _ member => Heap.ways_of_links global member⟩

theorem serializes (walkable : heap.Walkable heap.links value)
    (grounded : heap.Grounded heap.links value) :
    ∃ bytes, packed.serialize heap value = .ok bytes := by
  obtain ⟨node, _, made, _⟩ := Node.depicts_walkable walkable grounded
  refine ⟨node.toItem.write, ?_⟩
  simp only [packed, made]
  rfl

end Codec

/-! ### Encoded parts -/

namespace Heap.Detached

variable {origin detached : Heap} {global value ref bare other : Ref}

theorem old_of_leads (walkable : origin.Walkable (origin.ways global) value)
    (taken : origin.Detached ref detached bare) (leads : Leads (origin.ways global) value bare) :
    bare = ref := by
  rcases taken.place with same | ⟨new, _⟩
  · exact same
  · exact absurd (walkable.inside bare leads) (Nat.not_lt_of_le new)

theorem links_bare (taken : origin.Detached ref detached bare) :
    detached.links bare = if (origin.body ref).isNamed then [] else (origin.body ref).links := by
  rw [links, taken.body, taken.attributes]
  split
  · rfl
  · exact List.append_nil _

theorem links_other (walkable : origin.Walkable (origin.ways global) value)
    (taken : origin.Detached ref detached bare) (different : other ≠ bare)
    (leads : Leads (origin.ways global) value other) :
    detached.links other = origin.links other := by
  have inside := walkable.inside other leads
  rw [links, links, taken.bodies other inside, taken.others other inside different]

/-- A value that was taken apart leads to nothing that the value does not lead to. -/
theorem follows (walkable : origin.Walkable (origin.ways global) value)
    (taken : origin.Detached ref detached bare) (leads : Leads (origin.ways global) value ref) :
    detached.Follows detached.links bare origin (origin.ways global) value ref where
  leads := leads
  place := taken.old_of_leads walkable
  head := by
    refine ⟨congrArg Body.isLocal taken.body, fun child member => ?_⟩
    rw [taken.links_bare] at member
    split at member
    · cases member
    · rw [ways, List.map_append, List.mem_append]
      exact Or.inl (Body.ways_links global member)
  tail other different found := by
    have inside := walkable.inside other found
    refine ⟨congrArg Body.isLocal (taken.bodies other inside), fun child member => ?_⟩
    rw [taken.links_other walkable different found] at member
    exact ways_of_links global member

theorem walkable_links (sound : origin.Sound)
    (walkable : origin.Walkable (origin.ways global) value)
    (taken : origin.Detached ref detached bare) (leads : Leads (origin.ways global) value ref)
    (isEncoded : (origin.body ref).isEncoded = true) :
    detached.Walkable detached.links bare where
  inside other reached := by
    rcases (taken.follows walkable leads).leads_or walkable reached with rfl | found
    · refine detached.inside_of_body fun null => ?_
      rw [← taken.body, null] at isEncoded
      cases isEncoded
    · exact Nat.lt_of_lt_of_le (walkable.inside other found) taken.size
  distinct other reached := by
    by_cases same : other = bare
    · have inside := walkable.inside ref leads
      rw [same, taken.links_bare]
      split
      · exact List.nodup_nil
      · exact (distinct_links fun frame body => ((sound.object ref inside).frame frame body).1).1
    · have found := ((taken.follows walkable leads).leads_or walkable reached).resolve_left same
      rw [taken.links_other walkable same found]
      exact sound.nodup_links (walkable.inside other found)

/-- The codec writes every part that is taken apart, although it begins with no local
environments. -/
theorem serializes (sound : origin.Sound) (walkable : origin.Walkable (origin.ways global) value)
    (grounded : origin.Grounded (origin.ways global) value)
    (taken : origin.Detached ref detached bare) (leads : Leads (origin.ways global) value ref)
    (isEncoded : (origin.body ref).isEncoded = true) :
    ∃ bytes, Codec.packed.serialize detached bare = .ok bytes :=
  Codec.serializes (taken.walkable_links sound walkable leads isEncoded)
    ((taken.follows walkable leads).grounded walkable grounded)

end Heap.Detached

namespace Message

variable {context : Context} {heap : Heap} {value : Ref}

/-- Every value is converted into a message, and written by the packed codec, whose cycles all pass
through a local environment: the cycles through elements, bindings and parents of local
environments, values and environments of promises, environments of closures, and attributes. -/
theorem ends_of_grounded (sound : heap.Sound) (codec : context.codec = .packed)
    (global : context.environments.global.index < heap.size) (inside : value.index < heap.size)
    (grounded : heap.Grounded (heap.ways context.environments.global) value) :
    (∃ message after, ofValue context heap value = (.ok message, after)) ∧
      ∃ bytes, Codec.packed.serialize heap value = .ok bytes := by
  have walkable := sound.walkable_ways global inside
  constructor
  · have guided : Guided context heap (heap.ways context.environments.global) value :=
      ⟨walkable, fun _ _ _ member => Heap.ways_of_conveyed member, grounded⟩
    refine guided.prepares sound ?_ ?_
    · intro ref delayed reason _ _ refused
      rw [codec] at refused
      cases refused
    · intro before ref reason ready leads isEncoded refused
      obtain ⟨_, detached, bare, taken, same⟩ := blobOf_spec sound ready
        (walkable.inside ref leads) isEncoded context.codec
      obtain ⟨bytes, written⟩ := taken.serializes sound walkable grounded leads isEncoded
      rw [same, codec, written] at refused
      cases refused
  · exact Codec.serializes (sound.walkable_links inside)
      ((Codec.follows_links heap _ value).grounded walkable grounded)

theorem closed_functionWays : ∀ ref, Codec.FunctionPart ref →
    ∀ child ∈ (Codec.functionHeap.ways sampleSender.environments.global ref).map Prod.snd,
      Codec.FunctionPart child := by
  unfold Codec.FunctionPart
  rintro ref (rfl | rfl | rfl)
  · decide
  · decide
  · decide

theorem grounded_functionWays : Codec.functionHeap.Grounded
    (Codec.functionHeap.ways sampleSender.environments.global) ⟨10⟩ := by
  refine Heap.grounded_of_rank Codec.FunctionPart Ref.index (Or.inr (Or.inl rfl))
    closed_functionWays ?_
  rintro ref (rfl | rfl | rfl)
  · decide
  · decide
  · decide

/-- An environment leads back to itself through a function, which is an encoded part. -/
theorem ends_function :
    ⟨11⟩ ∈ (Codec.functionHeap.ways sampleSender.environments.global ⟨10⟩).map Prod.snd ∧
      ⟨10⟩ ∈ (Codec.functionHeap.ways sampleSender.environments.global ⟨11⟩).map Prod.snd ∧
      (∃ message after, ofValue sampleSender Codec.functionHeap ⟨10⟩ = (.ok message, after)) ∧
      ∃ bytes, Codec.packed.serialize Codec.functionHeap ⟨10⟩ = .ok bytes :=
  ⟨by decide, by decide, ends_of_grounded Codec.sound_functionHeap rfl (by decide) (by decide)
    grounded_functionWays⟩

end Message

end ValueChannels
